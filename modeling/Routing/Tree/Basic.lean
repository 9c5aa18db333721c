import Std.Data.ExtTreeMap
import Routing.Path.Segment

/-!
# Trees of routes

The routes of one method are arranged in a tree whose edges are those of their paths: one branch
for every literal text, and one branch that all parameters share.

* `Entry` — what a node says about itself: the edge that leads to it, and its routes and names.
* `Branches` — the branches that leave a node. Literal branches come in ascending order of their
  texts, the wildcard branch comes last.
* `Node` — a node of a tree: its entry and its branches.
* `Node.at?` — the node at the end of a sequence of edges.
-/

namespace Routing

/-- What a node holds. `via` is the edge that leads to it, and none leads to a root; it is entered
when the node is made. `routes` are the numbers of the routes that end there, in order of
registration, and `names` has, by number of route, the name that each route gives to the edge into
the node if it is a parameter. -/
structure Entry where
  via : Option Edge
  routes : List Nat
  names : Std.ExtTreeMap Nat String

/-- The branches that leave a node, with everything below them. -/
inductive Branches where
  | nil
  | wildcard (entry : Entry) (below : Branches)
  | literal (text : String) (entry : Entry) (below rest : Branches)

/-- A node with all that lies below it. -/
structure Node where
  entry : Entry
  branches : Branches

/-- What a listing shows for an edge. -/
def Edge.text : Edge → String
  | .literal text => text
  | .wildcard => "*"

namespace Entry

/-- The entry of a new node, which no route has reached. -/
def new (via : Option Edge) : Entry :=
  ⟨via, [], ∅⟩

@[simp] theorem via_new (via : Option Edge) : (new via).via = via := rfl

@[simp] theorem routes_new (via : Option Edge) : (new via).routes = [] := rfl

@[simp] theorem names_new (via : Option Edge) : (new via).names = ∅ := rfl

/-- What a listing shows for the node: the edge that leads to it, and nothing for a root. -/
def text (entry : Entry) : String :=
  (entry.via.map Edge.text).getD ""

end Entry

namespace Branches

/-- The branch for a literal text. -/
def literal? (text : String) : Branches → Option (Entry × Branches)
  | .nil => none
  | .wildcard _ _ => none
  | .literal t entry below rest => if t = text then some (entry, below) else rest.literal? text

/-- The branch for any text. -/
def wildcard? : Branches → Option (Entry × Branches)
  | .nil => none
  | .wildcard entry below => some (entry, below)
  | .literal _ _ _ rest => rest.wildcard?

/-- The branch for an edge. -/
def branch? (branches : Branches) : Edge → Option (Entry × Branches)
  | .literal text => branches.literal? text
  | .wildcard => branches.wildcard?

/-- The texts of the literal branches. -/
def literals : Branches → List String
  | .nil => []
  | .wildcard _ _ => []
  | .literal text _ _ rest => text :: rest.literals

/-- The number of nodes that the branches hold. -/
def count : Branches → Nat
  | .nil => 0
  | .wildcard _ below => 1 + below.count
  | .literal _ _ below rest => 1 + below.count + rest.count

/-- The numbers of all routes that end below. -/
def routes : Branches → List Nat
  | .nil => []
  | .wildcard entry below => entry.routes ++ below.routes
  | .literal _ entry below rest => entry.routes ++ below.routes ++ rest.routes

end Branches

namespace Node

/-- A new node, from which no branch leaves. -/
def new (via : Option Edge) : Node :=
  ⟨.new via, .nil⟩

@[simp] theorem entry_new (via : Option Edge) : (new via).entry = .new via := rfl

@[simp] theorem branches_new (via : Option Edge) : (new via).branches = .nil := rfl

/-- The edge that leads to the node. -/
def via (node : Node) : Option Edge :=
  node.entry.via

/-- The node that an edge leads to. -/
def child? (node : Node) (e : Edge) : Option Node :=
  (node.branches.branch? e).map fun (entry, below) => ⟨entry, below⟩

/-- The node that a sequence of edges leads to. -/
def at? (node : Node) : List Edge → Option Node
  | [] => some node
  | e :: es => (node.child? e).bind (·.at? es)

/-- What a listing shows for the node. -/
def text (node : Node) : String :=
  node.entry.text

/-- No branch leaves the node. -/
def isLeaf (node : Node) : Bool :=
  match node.branches with
  | .nil => true
  | _ => false

/-- The number of nodes of the tree below this node, the node included. -/
def count (node : Node) : Nat :=
  1 + node.branches.count

/-- The numbers of all routes that end at the node or below it. -/
def routes (node : Node) : List Nat :=
  node.entry.routes ++ node.branches.routes

end Node

end Routing
