import Routing.Match
import Routing.Tree.Forest
import Routing.Url

/-!
# Answering by descent

A request is answered by descending the tree of its method along the pieces of the URL. At every
node the literal branch for the piece is taken if there is one, else the wildcard branch, and a
branch once taken is not taken back. The routes that end where the descent ends are the answer, and
the values of their parameters are the pieces at the nodes that know a name for the route.
-/

namespace Routing

/-- A node that a descent has entered, and the piece of the URL that led there. -/
structure Visit where
  node : Node
  piece : String

namespace Node

/-- The node that a piece of a URL leads to: a literal branch goes before the wildcard branch. -/
def step? (node : Node) (piece : String) : Option Node :=
  (node.child? (.literal piece)).or (node.child? .wildcard)

/-- Descend along the pieces of a URL: the node at the end, and the visits on the way. -/
def descend (node : Node) : List String → Option (Node × List Visit)
  | [] => some (node, [])
  | piece :: pieces =>
    (node.step? piece).bind fun child =>
      (child.descend pieces).map fun (last, visits) => (last, ⟨child, piece⟩ :: visits)

end Node

/-- The values that the visits of a descent give to the parameters of a route. -/
def paramsAlong (id : Nat) (visits : List Visit) : Params :=
  Params.ofPairs <| visits.filterMap fun visit =>
    visit.node.entry.names[id]?.map fun name => (name, visit.piece)

namespace Forest

variable {H : Type}

/-- The end of the descent for a request, if the method is known and has a tree. -/
def descend (forest : Forest) (method url : String) : Option (Node × List Visit) :=
  ((Method.ofToken? method).bind forest.tree?).bind (·.descend (Url.pieces url))

/-- The routes that end where the descent for a request ends, with their params. -/
def matches? (forest : Forest) (routes : List (Route H)) (method url : String) :
    Option (List (Match H)) :=
  (forest.descend method url).bind fun (last, visits) =>
    if last.entry.routes.isEmpty then none
    else
      some <| last.entry.routes.filterMap fun id =>
        routes[id]?.map fun route => ⟨route, paramsAlong id visits⟩

/-- Answer a request by descent. -/
def answer (forest : Forest) (routes : List (Route H)) (method url : String) : Answer H :=
  .ofMatches method url (forest.matches? routes method url)

end Forest

end Routing
