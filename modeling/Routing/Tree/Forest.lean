import Routing.Tree.Insert
import Routing.Tree.Listing

/-!
# The trees of all methods

A forest has one tree for every method that some route answers, in the order of `Method.all`.
-/

namespace Routing

/-- The trees of the methods that have routes. -/
structure Forest where
  trees : List (Method × Node)

namespace Forest

variable {H : Type}

/-- The routes of one method, in order of registration. -/
def routesOf (method : Method) (routes : List (Route H)) : List (Route H) :=
  routes.filter (·.method = method)

/-- The forest of a list of routes. -/
def ofRoutes (routes : List (Route H)) : Forest where
  trees := Method.all.filterMap fun method =>
    let own := routesOf method routes
    if own.isEmpty then none else some (method, Node.ofRoutes own)

/-- The tree of a method. -/
def tree? (forest : Forest) (method : Method) : Option Node :=
  forest.trees.lookup method

/-- The number of nodes of all trees. -/
def nodeCount (forest : Forest) : Nat :=
  forest.trees.foldr (fun (_, root) total => root.count + total) 0

/-- The listing of the forest: every tree one level deep under the token of its method. -/
def listing (forest : Forest) : String :=
  String.join (forest.trees.flatMap fun (method, root) => (method.token ++ "\n") :: root.lines 1)

end Forest

end Routing
