import Routing.Proofs.Path.Shape
import Routing.Proofs.Tree.Insertion

/-!
# What the nodes of a tree hold

The tree of a list of routes can be read off the list. A node lies at the end of some edges when
they begin the shape of a route, and what it holds is what the routes with this shape, and those
whose shape goes on from there, have to say about it.

The statements are about `Node.atOrNew`, so that nothing depends on whether a node is there.

* `Node.entry_atOrNew_insert` — what a node holds after an insertion.
* `Node.Labelled` — every node below has the label of the edge that leads to it.
* `Node.labelled_ofRoutes` — this is so in the tree of a list of routes.
* `Node.routes_atOrNew_ofRoutes`, `Node.names_atOrNew_ofRoutes` — what its nodes hold.
-/

namespace Routing

namespace Entry

@[simp] theorem via_noteName (entry : Entry) (id : Nat) (name : Option String) :
    (entry.noteName id name).via = entry.via := by
  cases name <;> rfl

@[simp] theorem via_addRoute (entry : Entry) (id : Nat) : (entry.addRoute id).via = entry.via := rfl

end Entry

namespace Node

variable {H : Type}

theorem insert_eq_insertAlong (node : Node) (route : Route H) :
    node.insert route = insertAlong route.id route.path.segments node := rfl

theorem atOrNew_of_at?_eq_some {node last : Node} {edges : List Edge}
    (h : node.at? edges = some last) : node.atOrNew edges = last := by
  rw [atOrNew, h, Option.getD_some]

/-! ## One more route -/

/-- What a node on the way of an insertion holds when the insertion comes to it. -/
theorem entry_reach (id : Nat) (node : Node) (segments : List Segment) :
    (node.reach id segments).entry =
      (node.atOrNew (segments.map Segment.edge)).entry.noteName id
        (segments.getLast?.bind Segment.name?) := by
  rcases List.eq_nil_or_concat' segments with rfl | ⟨front, s, rfl⟩
  · rfl
  · rw [reach_concat, List.map_append, List.getLast?_concat]
    rfl

theorem entry_insertAlong (id : Nat) (segments : List Segment) (node : Node) :
    (insertAlong id segments node).entry =
      if segments = [] then node.entry.addRoute id else node.entry := by
  cases segments with
  | nil => rfl
  | cons s segments => simp [entry_insertAlong_cons]

/-- Cut the segments of a path where some edges end that its shape begins with. -/
theorem exists_segments_eq_append {path : Path} {edges : List Edge} (h : edges <+: path.shape) :
    ∃ back, path.segments = path.segments.take edges.length ++ back ∧
      edges = (path.segments.take edges.length).map Segment.edge ∧
      (back = [] ↔ edges = path.shape) := by
  refine ⟨path.segments.drop edges.length, (List.take_append_drop _ _).symm, ?_, ?_⟩
  · rw [List.map_take]
    exact List.prefix_iff_eq_take.1 h
  · rw [List.drop_eq_nil_iff]
    constructor
    · intro hle
      exact h.eq_of_length_le (by simpa using hle)
    · intro heq
      simp [heq]

/-- On its way an insertion comes to the node there and goes on along the segments left. -/
theorem at?_insert_of_isPrefix (node : Node) (route : Route H) {edges : List Edge}
    (h : edges <+: route.path.shape) :
    ∃ front back, (node.insert route).at? edges =
        some (insertAlong route.id back (node.reach route.id front)) ∧
      edges = front.map Segment.edge ∧ (back = [] ↔ edges = route.path.shape) ∧
      front.getLast?.bind Segment.name? = route.path.nameInto? edges := by
  rcases exists_segments_eq_append h with ⟨back, hsegments, hedges, hback⟩
  refine ⟨route.path.segments.take edges.length, back, ?_, hedges, hback, rfl⟩
  have hat := at?_insertAlong route.id (route.path.segments.take edges.length) back node
  rwa [← hsegments, ← hedges] at hat

/-- What a node at the end of some edges holds after an insertion. -/
theorem entry_atOrNew_insert (node : Node) (route : Route H) (edges : List Edge) :
    ((node.insert route).atOrNew edges).entry =
      if edges <+: route.path.shape then
        let noted := (node.atOrNew edges).entry.noteName route.id (route.path.nameInto? edges)
        if edges = route.path.shape then noted.addRoute route.id else noted
      else (node.atOrNew edges).entry := by
  by_cases h : edges <+: route.path.shape
  · rcases at?_insert_of_isPrefix node route h with ⟨front, back, hat, hedges, hback, hname⟩
    rw [if_pos h, atOrNew_of_at?_eq_some hat, entry_insertAlong, entry_reach, ← hedges, hname]
    simp only [hback]
  · rw [if_neg h, atOrNew, insert_eq_insertAlong, at?_insertAlong_of_not_isPrefix _ _ h]
    rfl

/-- An insertion makes the nodes on its way, and no others. -/
theorem isSome_at?_insert (node : Node) (route : Route H) (edges : List Edge) :
    ((node.insert route).at? edges).isSome ↔
      edges <+: route.path.shape ∨ (node.at? edges).isSome := by
  by_cases h : edges <+: route.path.shape
  · rcases at?_insert_of_isPrefix node route h with ⟨front, back, hat, -⟩
    simp [hat, h]
  · rw [insert_eq_insertAlong, at?_insertAlong_of_not_isPrefix _ _ h]
    simp [h]

/-! ## Labels -/

/-- Every node below has the label of the edge that leads to it. -/
def Labelled (node : Node) : Prop :=
  ∀ edges e last, node.at? (edges ++ [e]) = some last → last.via = some e

/-- The label of a child, and the labels of all nodes below it. -/
theorem Labelled.of_child? {node child : Node} (h : node.Labelled) {e : Edge}
    (hchild : node.child? e = some child) : child.via = some e ∧ child.Labelled := by
  constructor
  · apply h []
    rw [List.nil_append, at?_cons, hchild]
    rfl
  · intro edges d last hat
    apply h (e :: edges)
    rw [List.cons_append, at?_cons, hchild, Option.bind_some, hat]

/-- An insertion changes no label, and a node that it makes gets the label of its edge. -/
theorem via_atOrNew_insert (node : Node) (route : Route H) (edges : List Edge) :
    ((node.insert route).atOrNew edges).via = (node.atOrNew edges).via := by
  unfold via
  rw [entry_atOrNew_insert]
  by_cases h : edges <+: route.path.shape
  · rw [if_pos h]
    by_cases hend : edges = route.path.shape <;> simp [hend]
  · rw [if_neg h]

/-! ## The tree of a list of routes -/

theorem ofRoutes_concat (routes : List (Route H)) (route : Route H) :
    ofRoutes (routes ++ [route]) = (ofRoutes routes).insert route := by
  simp [ofRoutes, List.foldl_append]

theorem atOrNew_new (edges : List Edge) : (new none).atOrNew edges = new edges.getLast? := by
  cases edges with
  | nil => rfl
  | cons e edges => cases e <;> rfl

/-- The label of a node in the tree of some routes is the last of the edges that lead to it. -/
theorem via_atOrNew_ofRoutes (routes : List (Route H)) (edges : List Edge) :
    ((ofRoutes routes).atOrNew edges).via = edges.getLast? := by
  induction routes using List.reverseRecOn with
  | nil =>
    rw [ofRoutes, List.foldl_nil, atOrNew_new]
    rfl
  | append_singleton routes route ih => rw [ofRoutes_concat, via_atOrNew_insert, ih]

theorem labelled_ofRoutes (routes : List (Route H)) : (ofRoutes routes).Labelled := by
  intro edges e last hat
  have hvia := via_atOrNew_ofRoutes routes (edges ++ [e])
  rwa [atOrNew_of_at?_eq_some hat, List.getLast?_concat] at hvia

/-- A node lies at the end of the edges that begin the shape of a route, and nowhere else. -/
theorem isSome_at?_ofRoutes (routes : List (Route H)) (edges : List Edge) :
    ((ofRoutes routes).at? edges).isSome ↔
      edges = [] ∨ ∃ route ∈ routes, edges <+: route.path.shape := by
  induction routes using List.reverseRecOn with
  | nil =>
    cases edges with
    | nil => simp
    | cons e edges => cases e <;> simp [ofRoutes, at?_cons, child?, Branches.branch?,
        Branches.literal?, Branches.wildcard?]
  | append_singleton routes route ih =>
    rw [ofRoutes_concat, isSome_at?_insert, ih]
    simp only [List.mem_append, List.mem_singleton, or_and_right, exists_or, exists_eq_left]
    rw [or_comm, or_assoc]

/-- The routes that end at a node are those of its shape, in order. -/
theorem routes_atOrNew_ofRoutes (routes : List (Route H)) (edges : List Edge) :
    ((ofRoutes routes).atOrNew edges).entry.routes =
      (routes.filter (·.path.shape = edges)).map (·.id) := by
  induction routes using List.reverseRecOn with
  | nil => simp [ofRoutes, atOrNew_new]
  | append_singleton routes route ih =>
    have hnoted : ∀ (entry : Entry) (name : Option String),
        (entry.noteName route.id name).routes = entry.routes := by
      intro entry name
      cases name <;> rfl
    rw [ofRoutes_concat, entry_atOrNew_insert, List.filter_append, List.map_append, ← ih]
    by_cases hshape : edges = route.path.shape
    · subst hshape
      simp [Entry.addRoute, hnoted]
    · -- a node that the new route only passes gets at most a name
      have hother : [route].filter (·.path.shape = edges) = [] := by
        simp [Ne.symm hshape]
      rw [hother, List.map_nil, List.append_nil, if_neg hshape]
      split
      · exact hnoted _ _
      · rfl

/-- Whose names a node knows: those of the routes that pass through it by a parameter. -/
theorem names_atOrNew_ofRoutes (routes : List (Route H)) (hids : (routes.map (·.id)).Nodup)
    (edges : List Edge) (id : Nat) (name : String) :
    ((ofRoutes routes).atOrNew edges).entry.names[id]? = some name ↔
      ∃ route ∈ routes, route.id = id ∧ edges <+: route.path.shape ∧
        route.path.nameInto? edges = some name := by
  induction routes using List.reverseRecOn with
  | nil => simp [ofRoutes, atOrNew_new]
  | append_singleton routes route ih =>
    rw [List.map_append, List.nodup_append] at hids
    rcases hids with ⟨hold, -, hnew⟩
    -- the number of the new route is in no name table yet
    have hfresh : ∀ r ∈ routes, r.id ≠ route.id := by
      intro r hr
      exact hnew r.id (List.mem_map_of_mem hr) route.id (by simp)
    have hnames : ∀ entry : Entry, (entry.addRoute route.id).names = entry.names := fun _ => rfl
    have hrest := ih hold
    rw [ofRoutes_concat, entry_atOrNew_insert]
    simp only [List.mem_append, List.mem_singleton, or_and_right, exists_or, exists_eq_left]
    rw [← hrest]
    by_cases hbegins : edges <+: route.path.shape
    · rw [if_pos hbegins, apply_ite Entry.names, hnames, ite_self]
      cases hname : route.path.nameInto? edges with
      | none => simp [Entry.noteName]
      | some own =>
        by_cases hid : route.id = id
        · -- nothing was known about this number, so the name noted now is the only one
          have hnone : ¬ ((ofRoutes routes).atOrNew edges).entry.names[id]? = some name := by
            intro h
            rcases hrest.1 h with ⟨r, hr, hrid, -⟩
            exact hfresh r hr (hrid.trans hid.symm)
          simp [Entry.noteName, Entry.addName, hid, hnone, hbegins]
        · simp [Entry.noteName, Entry.addName, Std.ExtTreeMap.getElem?_insert, hid]
    · simp [hbegins]

end Node

end Routing
