import Routing.Proofs.Descent.Visits

/-!
# The rule of a descent

A descent takes the literal branch for a piece if there is one, and the wildcard branch only without
one. `Node.Descends` is this rule on its own, as a relation between a node, the pieces that are
read, the edges that are gone through and the node at the end.

* `Node.Descends.unique` — there is at most one descent.
* `Node.Labelled.descends_iff`, `Forest.Labelled.descends_iff` — the relation holds of what a
  descent finds, and of nothing else.
* `Node.descends_iff_at?` — the edges decide: they lead to the node at the end, and wherever they go
  through a wildcard, no node lies behind the literal.
-/

namespace Routing

namespace Node

/-- A descent that prefers literals, from a node along the pieces of a URL and through some edges
to a node. -/
inductive Descends : Node → List String → List Edge → Node → Prop where
  | stay (node : Node) : Descends node [] [] node
  | literal {node child last : Node} {piece : String} {pieces : List String} {edges : List Edge}
      (hliteral : node.child? (.literal piece) = some child)
      (hrest : Descends child pieces edges last) :
      Descends node (piece :: pieces) (.literal piece :: edges) last
  | wildcard {node child last : Node} {piece : String} {pieces : List String} {edges : List Edge}
      (hliteral : node.child? (.literal piece) = none)
      (hwildcard : node.child? .wildcard = some child)
      (hrest : Descends child pieces edges last) :
      Descends node (piece :: pieces) (.wildcard :: edges) last

/-- There is at most one descent along given pieces. -/
theorem Descends.unique {node last last' : Node} {pieces : List String} {edges edges' : List Edge}
    (h : node.Descends pieces edges last) (h' : node.Descends pieces edges' last') :
    edges = edges' ∧ last = last' := by
  -- at every piece it is settled whether there is a literal branch
  induction h generalizing edges' with
  | stay node =>
    cases h'
    exact ⟨rfl, rfl⟩
  | literal hliteral _ ih =>
    cases h' with
    | literal hliteral' hrest =>
      rw [hliteral] at hliteral'
      obtain rfl := Option.some.inj hliteral'
      obtain ⟨rfl, rfl⟩ := ih hrest
      exact ⟨rfl, rfl⟩
    | wildcard hnone _ _ =>
      rw [hliteral] at hnone
      cases hnone
  | wildcard hnone hwildcard _ ih =>
    cases h' with
    | literal hliteral _ =>
      rw [hnone] at hliteral
      cases hliteral
    | wildcard _ hwildcard' hrest =>
      rw [hwildcard] at hwildcard'
      obtain rfl := Option.some.inj hwildcard'
      obtain ⟨rfl, rfl⟩ := ih hrest
      exact ⟨rfl, rfl⟩

/-! ## The relation and the function -/

theorem Labelled.descends_of_descend {node last : Node} {pieces : List String}
    {visits : List Visit} (hnode : node.Labelled)
    (h : node.descend pieces = some (last, visits)) :
    node.Descends pieces (edgesOf visits) last := by
  induction pieces generalizing node visits with
  | nil =>
    cases h
    exact .stay _
  | cons piece pieces ih =>
    rcases descend_cons_eq_some_iff.1 h with ⟨child, rest, hstep, hrest, rfl⟩
    rcases step?_eq_some_iff.1 hstep with hliteral | ⟨hnone, hwildcard⟩
    · rcases hnode.of_child? hliteral with ⟨hvia, hchild⟩
      rw [edgesOf_cons hvia]
      exact .literal hliteral (ih hchild hrest)
    · rcases hnode.of_child? hwildcard with ⟨hvia, hchild⟩
      rw [edgesOf_cons hvia]
      exact .wildcard hnone hwildcard (ih hchild hrest)

/-- What the relation holds of is what the function finds, whatever the labels are. -/
theorem Descends.exists_visits {node last : Node} {pieces : List String} {edges : List Edge}
    (h : node.Descends pieces edges last) :
    ∃ visits, node.descend pieces = some (last, visits) := by
  induction h with
  | stay node => exact ⟨[], rfl⟩
  | @literal node child last piece pieces edges hliteral _ ih =>
    rcases ih with ⟨rest, hrest⟩
    exact ⟨⟨child, piece⟩ :: rest, descend_cons_eq_some_iff.2
      ⟨child, rest, step?_eq_some_iff.2 (Or.inl hliteral), hrest, rfl⟩⟩
  | @wildcard node child last piece pieces edges hliteral hwildcard _ ih =>
    rcases ih with ⟨rest, hrest⟩
    exact ⟨⟨child, piece⟩ :: rest, descend_cons_eq_some_iff.2
      ⟨child, rest, step?_eq_some_iff.2 (Or.inr ⟨hliteral, hwildcard⟩), hrest, rfl⟩⟩

/-- In a labelled tree the relation holds of what a descent finds, and of nothing else. -/
theorem Labelled.descends_iff {node last : Node} (hnode : node.Labelled) {pieces : List String}
    {edges : List Edge} :
    node.Descends pieces edges last ↔
      ∃ visits, node.descend pieces = some (last, visits) ∧ edgesOf visits = edges := by
  constructor
  · intro h
    rcases h.exists_visits with ⟨visits, hdescend⟩
    obtain ⟨rfl, -⟩ := h.unique (hnode.descends_of_descend hdescend)
    exact ⟨visits, hdescend, rfl⟩
  · rintro ⟨visits, hdescend, rfl⟩
    exact hnode.descends_of_descend hdescend

/-! ## The edges decide -/

/-- At every piece the edges go through its literal, or through the wildcard because no node lies
behind the literal. -/
def Prefers (node : Node) (pieces : List String) (edges : List Edge) : Prop :=
  ∀ i piece, pieces[i]? = some piece →
    edges[i]? = some (.literal piece) ∨
      edges[i]? = some .wildcard ∧ node.at? (edges.take i ++ [.literal piece]) = none

/-- The preference at the first piece, and at the others from the child on. -/
theorem prefers_cons_iff {node child : Node} {piece : String} {pieces : List String} {e : Edge}
    {edges : List Edge} (hchild : node.child? e = some child) :
    node.Prefers (piece :: pieces) (e :: edges) ↔
      (e = .literal piece ∨ e = .wildcard ∧ node.child? (.literal piece) = none) ∧
        child.Prefers pieces edges := by
  have hfirst : node.at? [.literal piece] = none ↔ node.child? (.literal piece) = none := by
    rw [at?_cons]
    cases node.child? (.literal piece) <;> simp
  have hbelow : ∀ (i : Nat) (p : String),
      node.at? ((e :: edges).take (i + 1) ++ [.literal p]) =
        child.at? (edges.take i ++ [.literal p]) := by
    intro i p
    rw [List.take_succ_cons, List.cons_append, at?_cons, hchild, Option.bind_some]
  constructor
  · intro h
    constructor
    · simpa [hfirst] using h 0 piece rfl
    · intro i p hp
      have hnext := h (i + 1) p hp
      rwa [hbelow, List.getElem?_cons_succ] at hnext
  · rintro ⟨hpiece, hrest⟩ i p hp
    cases i with
    | zero =>
      obtain rfl : piece = p := by simpa using hp
      simpa [hfirst] using hpiece
    | succ i =>
      rw [hbelow, List.getElem?_cons_succ]
      exact hrest i p hp

/-- Edges are those of a descent when they lead to a node, one for every piece, and prefer
literals. -/
theorem descends_iff_at? {node last : Node} {pieces : List String} {edges : List Edge} :
    node.Descends pieces edges last ↔
      node.at? edges = some last ∧ edges.length = pieces.length ∧ node.Prefers pieces edges := by
  induction pieces generalizing node edges with
  | nil =>
    constructor
    · intro h
      cases h
      exact ⟨rfl, rfl, by simp [Prefers]⟩
    · rintro ⟨hat, hlen, -⟩
      obtain rfl : edges = [] := List.length_eq_zero_iff.1 hlen
      obtain rfl : node = last := Option.some.inj hat
      exact .stay node
  | cons piece pieces ih =>
    constructor
    · intro h
      cases h with
      | literal hliteral hrest =>
        rcases ih.1 hrest with ⟨hat, hlen, hprefers⟩
        refine ⟨?_, by simpa using hlen, (prefers_cons_iff hliteral).2 ⟨Or.inl rfl, hprefers⟩⟩
        rw [at?_cons, hliteral, Option.bind_some, hat]
      | wildcard hliteral hwildcard hrest =>
        rcases ih.1 hrest with ⟨hat, hlen, hprefers⟩
        refine ⟨?_, by simpa using hlen,
          (prefers_cons_iff hwildcard).2 ⟨Or.inr ⟨rfl, hliteral⟩, hprefers⟩⟩
        rw [at?_cons, hwildcard, Option.bind_some, hat]
    · rintro ⟨hat, hlen, hprefers⟩
      cases edges with
      | nil => cases hlen
      | cons e edges =>
        rw [at?_cons] at hat
        rcases Option.bind_eq_some_iff.1 hat with ⟨child, hchild, hat⟩
        rcases (prefers_cons_iff hchild).1 hprefers with ⟨hpiece, hprefers⟩
        have hrest : child.Descends pieces edges last :=
          ih.2 ⟨hat, by simpa using hlen, hprefers⟩
        rcases hpiece with rfl | ⟨rfl, hnone⟩
        · exact .literal hchild hrest
        · exact .wildcard hnone hchild hrest

end Node

namespace Forest

/-- A descent that prefers literals, in the tree of the method that has exactly the given token. -/
def Descends (forest : Forest) (method : String) (pieces : List String) (edges : List Edge)
    (last : Node) : Prop :=
  ∃ m root, m.token = method ∧ forest.tree? m = some root ∧ root.Descends pieces edges last

/-- A request descends in at most one way. -/
theorem Descends.unique {forest : Forest} {method : String} {pieces : List String}
    {edges edges' : List Edge} {last last' : Node}
    (h : forest.Descends method pieces edges last)
    (h' : forest.Descends method pieces edges' last') : edges = edges' ∧ last = last' := by
  rcases h with ⟨m, root, htoken, htree, hroot⟩
  rcases h' with ⟨m', root', htoken', htree', hroot'⟩
  -- a token names one method, and a method has one tree
  obtain rfl : m = m' := Method.token_injective (htoken.trans htoken'.symm)
  rw [htree] at htree'
  cases htree'
  exact hroot.unique hroot'

/-- A request descends in its tree as the relation says. -/
theorem Labelled.descends_iff {forest : Forest} (hforest : forest.Labelled) {method url : String}
    {edges : List Edge} {last : Node} :
    forest.Descends method (Url.pieces url) edges last ↔
      ∃ visits, forest.descend method url = some (last, visits) ∧ edgesOf visits = edges := by
  constructor
  · rintro ⟨m, root, htoken, htree, hroot⟩
    rcases (hforest m root htree).descends_iff.1 hroot with ⟨visits, hdescend, hedges⟩
    refine ⟨visits, ?_, hedges⟩
    rw [descend, Method.ofToken?_eq_some_iff.2 htoken, Option.bind_some, htree, Option.bind_some,
      hdescend]
  · rintro ⟨visits, hdescend, hedges⟩
    rcases Option.bind_eq_some_iff.1 hdescend with ⟨root, hroot, hdescend⟩
    rcases Option.bind_eq_some_iff.1 hroot with ⟨m, hm, htree⟩
    exact ⟨m, root, Method.ofToken?_eq_some_iff.1 hm, htree,
      (hforest m root htree).descends_iff.2 ⟨visits, hdescend, hedges⟩⟩

end Forest

end Routing
