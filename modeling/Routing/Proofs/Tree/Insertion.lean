import Mathlib
import Routing.Tree.Insert

/-!
# What an insertion changes

A route is inserted along its segments. The nodes that lie on this way are reached one after the
other, made if they are missing, and a parameter leaves its name at the node that it leads to. All
other nodes stay as they were.

* `Node.insertAlong` — an insertion that has come to a node and goes on along the segments left.
* `Node.reach` — the node that an insertion has come to, before it goes on.
* `Node.at?_insertAlong` — the node on the way.
* `Node.at?_insertAlong_of_not_isPrefix` — any other node.
-/

namespace Routing

/-- Note the name that a route gives to the edge into a node, if it gives one. -/
def Entry.noteName (entry : Entry) (id : Nat) : Option String → Entry
  | none => entry
  | some name => entry.addName id name

namespace Node

/-- The node that an edge leads to, or the one that would be made for it. -/
def childOrNew (node : Node) (e : Edge) : Node :=
  (node.child? e).getD (.new (some e))

/-- The node at the end of a sequence of edges, or the one that would be made there. -/
def atOrNew (node : Node) (edges : List Edge) : Node :=
  (node.at? edges).getD (.new edges.getLast?)

/-- Note the name that a segment gives to the edge into the node. -/
def note (node : Node) (id : Nat) (s : Segment) : Node :=
  { node with entry := node.entry.noteName id s.name? }

/-- Insert a route number at the end of the given segments. -/
def insertAlong (id : Nat) (segments : List Segment) (node : Node) : Node :=
  let (entry, branches) := Branches.insert id segments node.entry node.branches
  ⟨entry, branches⟩

/-- The node that an insertion comes to behind the given segments, before it goes on. -/
def reach (id : Nat) (node : Node) : List Segment → Node
  | [] => node
  | s :: segments => reach id ((node.childOrNew s.edge).note id s) segments

/-! ## One step of an insertion -/

theorem entry_insertAlong_cons (id : Nat) (s : Segment) (segments : List Segment) (node : Node) :
    (insertAlong id (s :: segments) node).entry = node.entry := by
  cases s <;> rfl

/-- An insertion goes through the branch for its next segment and leaves the others alone. -/
theorem child?_insertAlong_cons (id : Nat) (s : Segment) (segments : List Segment) (node : Node)
    (e : Edge) :
    (insertAlong id (s :: segments) node).child? e =
      if e = s.edge then
        some (insertAlong id segments ((node.childOrNew s.edge).note id s))
      else node.child? e := by
  -- both kinds of segments alter the branch of their edge, by lemmas of their own
  cases s with
  | literal text =>
    by_cases he : e = .literal text
    · subst he
      simp only [insertAlong, child?, Branches.insert, Branches.branch?_alterLiteral,
        Branches.contentOrNew, childOrNew, Segment.edge]
      cases node.branches.branch? (.literal text) <;> rfl
    · simp [insertAlong, child?, Branches.insert, Branches.branch?_alterLiteral, Segment.edge, he]
  | parameter name =>
    by_cases he : e = .wildcard
    · subst he
      simp only [insertAlong, child?, Branches.insert, Branches.branch?_alterWildcard,
        Branches.contentOrNew, childOrNew, Segment.edge]
      cases node.branches.branch? .wildcard <;> rfl
    · simp [insertAlong, child?, Branches.insert, Branches.branch?_alterWildcard, Segment.edge, he]

/-! ## Nodes below a noted or a new node -/

@[simp] theorem at?_nil (node : Node) : node.at? [] = some node := rfl

theorem at?_cons (node : Node) (e : Edge) (edges : List Edge) :
    node.at? (e :: edges) = (node.child? e).bind (·.at? edges) := rfl

/-- Two steps of a descent along edges can be taken one after the other. -/
theorem at?_append (node : Node) (front back : List Edge) :
    node.at? (front ++ back) = (node.at? front).bind (·.at? back) := by
  induction front generalizing node with
  | nil => rfl
  | cons e front ih =>
    rw [List.cons_append, at?_cons, at?_cons]
    cases node.child? e with
    | none => rfl
    | some child => exact ih child

theorem at?_concat (node : Node) (edges : List Edge) (e : Edge) :
    node.at? (edges ++ [e]) = (node.at? edges).bind (·.child? e) := by
  rw [at?_append]
  congr 1
  funext child
  rw [at?_cons]
  cases child.child? e <;> rfl

/-- What is below a node does not depend on what the node itself holds. -/
theorem at?_note (node : Node) (id : Nat) (s : Segment) {edges : List Edge} (h : edges ≠ []) :
    (node.note id s).at? edges = node.at? edges := by
  cases edges with
  | nil => exact absurd rfl h
  | cons e edges => rfl

theorem at?_childOrNew (node : Node) (e : Edge) {edges : List Edge} (h : edges ≠ []) :
    (node.childOrNew e).at? edges = node.at? (e :: edges) := by
  rw [at?_cons, childOrNew]
  cases node.child? e with
  | some child => rfl
  | none =>
    cases edges with
    | nil => exact absurd rfl h
    | cons d edges => cases d <;> rfl

/-- The node that an insertion comes to is the old one there, or a new one, with one more name. -/
theorem reach_concat (id : Nat) (node : Node) (segments : List Segment) (s : Segment) :
    node.reach id (segments ++ [s]) =
      (node.atOrNew (segments.map Segment.edge ++ [s.edge])).note id s := by
  induction segments generalizing node with
  | nil =>
    simp only [reach, List.nil_append, List.map_nil, atOrNew, childOrNew, at?_cons, at?_nil]
    cases node.child? s.edge <;> rfl
  | cons t segments ih =>
    rw [List.cons_append, reach, ih]
    -- the note at the first child is not seen below it
    have hne : segments.map Segment.edge ++ [s.edge] ≠ [] := by simp
    have hlast : (segments.map Segment.edge ++ [s.edge]).getLast? =
        (t.edge :: (segments.map Segment.edge ++ [s.edge])).getLast? := by
      rw [List.getLast?_cons_of_ne_nil hne]
    simp only [atOrNew, List.map_cons, List.cons_append]
    rw [at?_note _ _ _ hne, at?_childOrNew _ _ hne, hlast]

/-! ## All nodes after an insertion -/

/-- On its way an insertion comes to every node and goes on from there. -/
theorem at?_insertAlong (id : Nat) (front back : List Segment) (node : Node) :
    (insertAlong id (front ++ back) node).at? (front.map Segment.edge) =
      some (insertAlong id back (node.reach id front)) := by
  -- for all nodes: the child that the insertion goes to has been noted, or is new
  induction front generalizing node with
  | nil => rfl
  | cons s front ih =>
    rw [List.cons_append, List.map_cons, at?_cons, child?_insertAlong_cons, if_pos rfl]
    exact ih _

/-- A node that does not lie on the way of an insertion is left as it was. -/
theorem at?_insertAlong_of_not_isPrefix (id : Nat) {segments : List Segment} (node : Node)
    {edges : List Edge} (h : ¬ edges <+: segments.map Segment.edge) :
    (insertAlong id segments node).at? edges = node.at? edges := by
  induction edges generalizing segments node with
  | nil => exact absurd List.nil_prefix h
  | cons e edges ih =>
    cases segments with
    | nil => rfl
    | cons s segments =>
      rw [at?_cons, child?_insertAlong_cons]
      by_cases he : e = s.edge
      · -- the way goes on through this edge, so it parts from `edges` further down
        have hrest : ¬ edges <+: segments.map Segment.edge := by
          intro hbegins
          exact h (by simpa [he] using hbegins)
        have hne : edges ≠ [] := by
          intro hnil
          exact hrest (hnil ▸ List.nil_prefix)
        rw [if_pos he, Option.bind_some, ih _ hrest, at?_note _ _ _ hne, at?_childOrNew _ _ hne, he]
      · rw [if_neg he]
        rfl

end Node

end Routing
