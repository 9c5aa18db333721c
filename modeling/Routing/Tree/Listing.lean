import Routing.Tree.Basic

/-!
# Listing a tree

A tree is listed with one line for every node, a node before what lies below it, literal branches
in ascending order before the wildcard branch. A line is indented by two spaces for every level and
shows how the node is reached, the routes that end there and the names that routes give to it.
-/

namespace Routing

namespace Entry

/-- What the line of a node says about its routes and names; nothing when there are none. -/
def note (entry : Entry) : String :=
  let routes :=
    if entry.routes.isEmpty then ""
    else " routes=[" ++ ", ".intercalate (entry.routes.map toString) ++ "]"
  let names :=
    if entry.names.isEmpty then ""
    else
      let pairs := entry.names.toList.map fun (id, name) => toString id ++ ":" ++ name
      " params=\x7b" ++ ", ".intercalate pairs ++ "\x7d"
  routes ++ names

/-- The line of a node at some depth. -/
def line (entry : Entry) (depth : Nat) : String :=
  String.ofList (List.replicate (2 * depth) ' ') ++ entry.text ++ "/" ++ entry.note ++ "\n"

end Entry

namespace Branches

/-- The lines of all nodes that the branches hold. -/
def lines (depth : Nat) : Branches → List String
  | .nil => []
  | .wildcard entry below => entry.line depth :: below.lines (depth + 1)
  | .literal _ entry below rest =>
    entry.line depth :: below.lines (depth + 1) ++ rest.lines depth

end Branches

namespace Node

/-- The lines of a node and of all that lies below it. -/
def lines (depth : Nat) (node : Node) : List String :=
  node.entry.line depth :: node.branches.lines (depth + 1)

/-- The listing of a node on its own. -/
def listing (node : Node) : String :=
  String.join (node.lines 0)

end Node

end Routing
