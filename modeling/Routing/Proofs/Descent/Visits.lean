import Routing.Descent
import Routing.Proofs.Forest.Content
import Routing.Proofs.Path.Bindings

/-!
# The nodes that a descent visits

A descent goes through one edge for every piece of the URL. The nodes that it visits are those at
the ends of the first one, two, three … of these edges, and a route that ends where the descent
ends has its names written there, one after the other.
-/

namespace Routing

/-- The edges that a descent has gone through, by the labels of the visited nodes. -/
def edgesOf (visits : List Visit) : List Edge :=
  visits.filterMap (·.node.via)

theorem edgesOf_cons {visit : Visit} {e : Edge} (h : visit.node.via = some e)
    (visits : List Visit) : edgesOf (visit :: visits) = e :: edgesOf visits :=
  List.filterMap_cons_some h

namespace Node

/-! ## One step of a descent -/

/-- A step takes the literal branch for the piece, and the wildcard branch only without one. -/
theorem step?_eq_some_iff {node child : Node} {piece : String} :
    node.step? piece = some child ↔
      node.child? (.literal piece) = some child ∨
        node.child? (.literal piece) = none ∧ node.child? .wildcard = some child := by
  rw [step?]
  cases node.child? (.literal piece) <;> simp

/-- A step leads through one edge, and this edge is the label of the node that it leads to. -/
theorem Labelled.exists_edge_of_step? {node child : Node} {piece : String} (hnode : node.Labelled)
    (h : node.step? piece = some child) :
    ∃ e, node.child? e = some child ∧ child.via = some e ∧ child.Labelled := by
  rcases step?_eq_some_iff.1 h with hliteral | ⟨-, hwildcard⟩
  · exact ⟨_, hliteral, hnode.of_child? hliteral⟩
  · exact ⟨_, hwildcard, hnode.of_child? hwildcard⟩

/-! ## A whole descent -/

theorem descend_nil (node : Node) : node.descend [] = some (node, []) := rfl

theorem descend_cons_eq_some_iff {node last : Node} {piece : String} {pieces : List String}
    {visits : List Visit} :
    node.descend (piece :: pieces) = some (last, visits) ↔
      ∃ child rest, node.step? piece = some child ∧ child.descend pieces = some (last, rest) ∧
        visits = ⟨child, piece⟩ :: rest := by
  rw [descend, Option.bind_eq_some_iff]
  constructor
  · rintro ⟨child, hstep, hrest⟩
    rcases Option.map_eq_some_iff.1 hrest with ⟨⟨end_, rest⟩, hdescend, heq⟩
    cases heq
    exact ⟨child, rest, hstep, hdescend, rfl⟩
  · rintro ⟨child, rest, hstep, hdescend, rfl⟩
    exact ⟨child, hstep, by simp [hdescend]⟩

/-- A descent that went through a literal does not come back to try the wildcard. -/
example :
    let registry := (Registry.empty.add .get (Path.ofText "/posts/:id/comments") ()).add .get
      (Path.ofText "/posts/abc") ()
    (Node.ofRoutes registry.routes).descend ["posts", "abc", "comments"] = none := by
  rfl

/-- A descent reads the pieces of the URL in order. -/
theorem pieces_of_descend {node last : Node} {pieces : List String} {visits : List Visit}
    (h : node.descend pieces = some (last, visits)) : visits.map (·.piece) = pieces := by
  induction pieces generalizing node visits with
  | nil =>
    cases h
    rfl
  | cons piece pieces ih =>
    rcases descend_cons_eq_some_iff.1 h with ⟨child, rest, -, hrest, rfl⟩
    rw [List.map_cons, ih hrest]

theorem length_edgesOf {node last : Node} {pieces : List String} {visits : List Visit}
    (hnode : node.Labelled) (h : node.descend pieces = some (last, visits)) :
    (edgesOf visits).length = pieces.length := by
  induction pieces generalizing node visits with
  | nil =>
    cases h
    rfl
  | cons piece pieces ih =>
    rcases descend_cons_eq_some_iff.1 h with ⟨child, rest, hstep, hrest, rfl⟩
    rcases hnode.exists_edge_of_step? hstep with ⟨e, -, hvia, hchild⟩
    rw [edgesOf_cons hvia, List.length_cons, List.length_cons, ih hchild hrest]

/-- Place by place, the edges of a descent are those by which the visited nodes were reached. -/
theorem getElem?_edgesOf {node last : Node} {pieces : List String} {visits : List Visit}
    (hnode : node.Labelled) (h : node.descend pieces = some (last, visits)) (i : Nat) :
    (edgesOf visits)[i]? = visits[i]?.bind (·.node.via) := by
  induction pieces generalizing node visits i with
  | nil =>
    cases h
    rfl
  | cons piece pieces ih =>
    rcases descend_cons_eq_some_iff.1 h with ⟨child, rest, hstep, hrest, rfl⟩
    rcases hnode.exists_edge_of_step? hstep with ⟨e, -, hvia, hchild⟩
    rw [edgesOf_cons hvia]
    cases i with
    | zero => exact hvia.symm
    | succ i => exact ih hchild hrest i

/-- A descent ends at the node that its edges lead to. -/
theorem at?_of_descend {node last : Node} {pieces : List String} {visits : List Visit}
    (hnode : node.Labelled) (h : node.descend pieces = some (last, visits)) :
    node.at? (edgesOf visits) = some last := by
  induction pieces generalizing node visits with
  | nil =>
    cases h
    rfl
  | cons piece pieces ih =>
    rcases descend_cons_eq_some_iff.1 h with ⟨child, rest, hstep, hrest, rfl⟩
    rcases hnode.exists_edge_of_step? hstep with ⟨e, hat, hvia, hchild⟩
    rw [edgesOf_cons hvia, at?_cons, hat, Option.bind_some]
    exact ih hchild hrest

/-- On its way a descent visits the nodes that its first edges lead to. -/
theorem at?_take_of_descend {node last : Node} {pieces : List String} {visits : List Visit}
    (hnode : node.Labelled) (h : node.descend pieces = some (last, visits)) {i : Nat} {visit : Visit}
    (hvisit : visits[i]? = some visit) :
    node.at? ((edgesOf visits).take (i + 1)) = some visit.node := by
  induction pieces generalizing node visits i with
  | nil =>
    cases h
    simp at hvisit
  | cons piece pieces ih =>
    rcases descend_cons_eq_some_iff.1 h with ⟨child, rest, hstep, hrest, rfl⟩
    rcases hnode.exists_edge_of_step? hstep with ⟨e, hat, hvia, hchild⟩
    rw [edgesOf_cons hvia, List.take_succ_cons, at?_cons, hat, Option.bind_some]
    cases i with
    | zero =>
      cases hvisit
      rfl
    | succ i => exact ih hchild hrest (by simpa using hvisit)

end Node

/-! ## The names of a route along a descent -/

variable {H : Type}

/-- What a route with the shape of a descent is called by the nodes on the way. -/
theorem nameInto?_take {path : Path} {i : Nat} (h : i < path.segments.length) :
    path.nameInto? (path.shape.take (i + 1)) = path.segments[i]?.bind Segment.name? := by
  have hi : i < path.shape.length := by rwa [Path.length_shape]
  have htake : path.shape.take (i + 1) = path.shape.take i ++ [path.shape[i]] := by
    rw [List.take_succ_eq_append_getElem hi]
  have hlen : (path.shape.take i).length = i := by
    rw [List.length_take]
    omega
  have hbegins : path.shape.take i ++ [path.shape[i]] <+: path.shape := by
    rw [← htake]
    exact List.take_prefix _ _
  rw [htake, Path.nameInto?_concat _ _ _ hbegins, hlen]

/-- A visited node calls a route that ends where the descent ends what the route's segment says. -/
theorem names_of_visit {routes : List (Route H)} (hids : (routes.map (·.id)).Nodup) {last : Node}
    {pieces : List String} {visits : List Visit}
    (h : (Node.ofRoutes routes).descend pieces = some (last, visits)) {r : Route H}
    (hr : r ∈ routes) (hshape : r.path.shape = edgesOf visits) {i : Nat} {visit : Visit}
    (hvisit : visits[i]? = some visit) :
    visit.node.entry.names[r.id]? = r.path.segments[i]?.bind Segment.name? := by
  have hi : i < r.path.segments.length := by
    have hlt := (List.getElem?_eq_some_iff.1 hvisit).1
    rwa [← Path.length_shape, hshape, Node.length_edgesOf (Node.labelled_ofRoutes routes) h,
      ← Node.pieces_of_descend h, List.length_map]
  have hat := Node.at?_take_of_descend (Node.labelled_ofRoutes routes) h hvisit
  rw [← hshape] at hat
  rw [Node.names_of_mem hids hat hr (List.take_prefix _ _), nameInto?_take hi]

/-- The params that a descent gives to a route ending there pair its parameters with the pieces. -/
theorem paramsAlong_eq {routes : List (Route H)} (hids : (routes.map (·.id)).Nodup) {last : Node}
    {pieces : List String} {visits : List Visit}
    (h : (Node.ofRoutes routes).descend pieces = some (last, visits)) {r : Route H}
    (hr : r ∈ routes) (hshape : r.path.shape = edgesOf visits) :
    paramsAlong r.id visits = Params.ofPairs (pairsAlong r.path.segments pieces) := by
  have hlen : r.path.segments.length = visits.length := by
    rw [← Path.length_shape, hshape, Node.length_edgesOf (Node.labelled_ofRoutes routes) h,
      ← Node.pieces_of_descend h, List.length_map]
  -- place by place, a visit has the name that the segment gives and the piece of the URL
  have hvisits : (visits.map fun visit => (visit.node.entry.names[r.id]?, visit.piece)) =
      (r.path.segments.zip pieces).map fun pair => (pair.1.name?, pair.2) := by
    apply List.ext_getElem?
    intro i
    rw [List.getElem?_map, List.getElem?_map]
    by_cases hi : i < visits.length
    · have hvisit := List.getElem?_eq_getElem hi
      have hsegment := List.getElem?_eq_getElem (hlen ▸ hi : i < r.path.segments.length)
      have hpiece : pieces[i]? = some visits[i].piece := by
        rw [← Node.pieces_of_descend h, List.getElem?_map, hvisit, Option.map_some]
      have hname : visits[i].node.entry.names[r.id]? = r.path.segments[i].name? := by
        rw [names_of_visit hids h hr hshape hvisit, hsegment, Option.bind_some]
      have hpair : (r.path.segments.zip pieces)[i]? =
          some (r.path.segments[i], visits[i].piece) :=
        List.getElem?_zip_eq_some.2 ⟨hsegment, hpiece⟩
      rw [hvisit, hpair, Option.map_some, Option.map_some, hname]
    · rw [List.getElem?_eq_none (by omega), List.getElem?_eq_none (by simp; omega)]
      rfl
  have hpairs := congrArg (List.filterMap fun pair : Option String × String =>
    pair.1.map (·, pair.2)) hvisits
  rw [List.filterMap_map, List.filterMap_map] at hpairs
  exact congrArg Params.ofPairs hpairs

end Routing
