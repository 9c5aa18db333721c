import Routing.Plan.Basic
import Routing.Tree.Forest

/-!
# Compiling a forest into a plan

Every node becomes one routine. The compiler follows the branches and keeps the list of *depths* at
which it went through a wildcard: when a request is answered the pieces at these depths, in this
order, will have been captured. A parameter of a route is therefore found in the slot whose depth
is the position of the parameter in the path of the route.

The routes need not be those that the forest was built from. A number without a route ends
without slots, and a parameter at a depth that was not captured has none.
-/

namespace Routing

variable {H : Type}

/-- The slots of a path's parameters, when the pieces at the given depths are captured. -/
def slotsOf (parameters : List Parameter) (depths : List Nat) : List Slot :=
  parameters.zipIdx.filterMap fun (parameter, index) =>
    (depths.idxOf? parameter.position).map fun place => ⟨index, place⟩

/-- The endings of a node: one for each route that ends there. -/
def endingsOf (routes : List (Route H)) (depths : List Nat) (entry : Entry) : List Ending :=
  entry.routes.map fun id =>
    ⟨id, match routes[id]? with
      | some route => slotsOf route.parameters depths
      | none => []⟩

/-- The choice between branches that leave a node at some depth. -/
def Branches.compile (routes : List (Route H)) (depth : Nat) (depths : List Nat) :
    Branches → Choice
  | .nil => .stop
  | .wildcard entry below =>
    .capture (endingsOf routes (depths ++ [depth]) entry)
      (below.compile routes (depth + 1) (depths ++ [depth]))
  | .literal text entry below rest =>
    .test text (endingsOf routes depths entry)
      (below.compile routes (depth + 1) depths) (rest.compile routes depth depths)

/-- The routine of the root of a tree. -/
def Node.compile (routes : List (Route H)) (root : Node) : Routine :=
  ⟨endingsOf routes [] root.entry, root.branches.compile routes 0 []⟩

/-- The plan of a forest, with the parameters of the given routes. -/
def Plan.compile (routes : List (Route H)) (forest : Forest) : Plan where
  routines := forest.trees.map fun (method, root) => (method, root.compile routes)

end Routing
