import Routing.Proofs.Text.Bytes
import Routing.Proofs.Tree.Insertion
import Routing.Proofs.Tree.Ordered
import Routing.Tree.Listing

/-!
# A listing goes through the places of a tree

A place of a tree is a node together with the edges that lead to it. A listing has one line for
every place, in preorder: a node first, then its literal branches, and its wildcard branch last. In
an ordered tree this is the lexicographic order of the edges, so no place comes twice.

* `Edge.Before` — the order of the branches of a node.
* `Branches.places`, `Node.places` — the places of a tree, in preorder.
* `Node.lines_eq_map_places` — the lines of a listing, place by place.
* `Node.mem_places_iff` — the places are the nodes that edges lead to.
* `Node.pairwise_places` — preorder is the lexicographic order.
-/

namespace Routing

/-! ## The order of edges -/

/-- In a listing literals come in ascending order of their bytes, and the wildcard comes last. -/
def Edge.Before : Edge → Edge → Prop
  | .literal t, .literal u => Text.bytes t < Text.bytes u
  | .literal _, .wildcard => True
  | .wildcard, _ => False

namespace Edge

instance : DecidableRel Before
  | .literal t, .literal u => inferInstanceAs (Decidable (Text.bytes t < Text.bytes u))
  | .literal _, .wildcard => isTrue trivial
  | .wildcard, _ => isFalse id

theorem before_literal_iff {t u : String} : Before (.literal t) (.literal u) ↔ t < u :=
  Text.bytes_lt_iff

theorem before_wildcard (t : String) : Before (.literal t) .wildcard := trivial

instance : Std.Asymm Before where
  asymm
    | .literal _, .literal _, h, h' =>
      lt_asymm (before_literal_iff.1 h) (before_literal_iff.1 h')
    | .literal _, .wildcard, _, h' => h'

instance : Std.Trichotomous Before where
  trichotomous
    | .literal t, .literal u, h, h' => by
      rw [before_literal_iff, not_lt] at h h'
      rw [le_antisymm h' h]
    | .literal t, .wildcard, h, _ => absurd (before_wildcard t) h
    | .wildcard, .literal u, _, h' => absurd (before_wildcard u) h'
    | .wildcard, .wildcard, _, _ => rfl

instance : IsOrderConnected Edge Before where
  conn
    | .literal t, .literal u, .literal v, h => by
      rw [before_literal_iff] at h
      rw [before_literal_iff, before_literal_iff]
      exact (lt_or_ge t u).imp_right fun hle => lt_of_le_of_lt hle h
    | .literal t, .literal u, .wildcard, _ => .inr (before_wildcard u)
    | .literal t, .wildcard, _, _ => .inl (before_wildcard t)

end Edge

/-! ## The places of a tree -/

/-- A node and the edges that lead to it. -/
structure Place where
  edges : List Edge
  entry : Entry

namespace Place

/-- The place seen from one edge further up. -/
def behind (e : Edge) (place : Place) : Place :=
  { place with edges := e :: place.edges }

/-- The line of a place in the listing of a tree whose root has the given depth. -/
def line (depth : Nat) (place : Place) : String :=
  place.entry.line (depth + place.edges.length)

/-- A place comes before another when its edges do. -/
def Before (place other : Place) : Prop :=
  List.Lex Edge.Before place.edges other.edges

theorem line_behind (e : Edge) (depth : Nat) (place : Place) :
    (place.behind e).line depth = place.line (depth + 1) := by
  rw [line, line, behind, List.length_cons, Nat.add_right_comm, Nat.add_assoc]

theorem mem_map_behind_iff {e d : Edge} {edges : List Edge} {entry : Entry} {places : List Place} :
    ⟨d :: edges, entry⟩ ∈ places.map (behind e) ↔ d = e ∧ ⟨edges, entry⟩ ∈ places := by
  constructor
  · intro h
    rcases List.mem_map.1 h with ⟨place, hplace, heq⟩
    obtain ⟨rfl, rfl⟩ | _ := heq
    exact ⟨rfl, hplace⟩
  · rintro ⟨rfl, hplace⟩
    exact List.mem_map.2 ⟨_, hplace, rfl⟩

end Place

/-- The places that the branches hold, in preorder. -/
def Branches.places : Branches → List Place
  | .nil => []
  | .wildcard entry below => (⟨[], entry⟩ :: below.places).map (Place.behind .wildcard)
  | .literal text entry below rest =>
    (⟨[], entry⟩ :: below.places).map (Place.behind (.literal text)) ++ rest.places

/-- The places of the tree below a node, the node included, in preorder. -/
def Node.places (node : Node) : List Place :=
  ⟨[], node.entry⟩ :: node.branches.places

namespace Branches

theorem edges_ne_nil_of_mem_places {branches : Branches} {place : Place}
    (h : place ∈ branches.places) : place.edges ≠ [] := by
  have hbehind : ∀ (e : Edge) (places : List Place), place ∈ places.map (Place.behind e) →
      place.edges ≠ [] := by
    intro e places hplace
    rcases List.mem_map.1 hplace with ⟨other, -, rfl⟩
    exact List.cons_ne_nil _ _
  induction branches with
  | nil => exact absurd h List.not_mem_nil
  | wildcard entry below => exact hbehind _ _ h
  | literal text entry below rest _ ih =>
    rcases List.mem_append.1 h with hbelow | hrest
    · exact hbehind _ _ hbelow
    · exact ih hrest

/-! ## Lines -/

/-- The lines behind a branch are counted from one level further down. -/
theorem lines_behind (e : Edge) (entry : Entry) {below : Branches} {depth : Nat}
    (h : below.lines (depth + 1 + 1) = below.places.map (Place.line (depth + 1))) :
    entry.line (depth + 1) :: below.lines (depth + 1 + 1) =
      ((⟨[], entry⟩ :: below.places).map (Place.behind e)).map (Place.line depth) := by
  have hline : Place.line depth ∘ Place.behind e = Place.line (depth + 1) :=
    funext (Place.line_behind e depth)
  rw [h, List.map_map, hline]
  rfl

/-- The lines of branches are those of their places. -/
theorem lines_eq_map_places (branches : Branches) (depth : Nat) :
    branches.lines (depth + 1) = branches.places.map (Place.line depth) := by
  induction branches generalizing depth with
  | nil => rfl
  | wildcard entry below ih => exact lines_behind .wildcard entry (ih (depth + 1))
  | literal text entry below rest ihbelow ihrest =>
    rw [lines, places, List.map_append, ← lines_behind _ _ (ihbelow (depth + 1)), ihrest]

/-! ## Nodes -/

/-- The places that begin with an edge are those of the node behind its branch. -/
theorem mem_places_iff {branches : Branches} (h : branches.Ordered) (e : Edge) (edges : List Edge)
    (entry : Entry) :
    ⟨e :: edges, entry⟩ ∈ branches.places ↔
      ∃ content, branches.branch? e = some content ∧
        ⟨edges, entry⟩ ∈ Node.places ⟨content.1, content.2⟩ := by
  induction branches with
  | nil => cases e <;> simp [places, branch?, literal?, wildcard?]
  | wildcard own below =>
    rw [places, Place.mem_map_behind_iff]
    cases e <;> simp [branch?, literal?, wildcard?, Node.places]
  | literal text own below rest _ ih =>
    rcases h with ⟨habove, -, hrest⟩
    rw [places, List.mem_append, Place.mem_map_behind_iff, ih hrest]
    by_cases he : e = .literal text
    · subst he
      -- the literals of the other branches are greater
      have hnone : rest.literal? text = none := by
        by_contra hsome
        have hmem : text ∈ rest.literals := mem_literals_iff.2 (Option.isSome_iff_ne_none.2 hsome)
        exact lt_irrefl text (habove text hmem)
      simp [hnone, branch?, literal?, Node.places]
    · have hother : (literal text own below rest).branch? e = rest.branch? e := by
        cases e with
        | wildcard => rfl
        | literal t =>
          have ht : text ≠ t := fun heq => he (heq ▸ rfl)
          simp [branch?, literal?, ht]
      simp [he, hother]

end Branches

namespace Node

/-- The places of a tree are the nodes that edges lead to, with these edges. -/
theorem mem_places_iff {node : Node} (h : node.branches.Ordered) (edges : List Edge)
    (entry : Entry) :
    ⟨edges, entry⟩ ∈ node.places ↔ ∃ last, node.at? edges = some last ∧ last.entry = entry := by
  induction edges generalizing node with
  | nil =>
    have hbelow : ⟨[], entry⟩ ∉ node.branches.places :=
      fun hmem => Branches.edges_ne_nil_of_mem_places hmem rfl
    simp [places, hbelow, eq_comm]
  | cons e edges ih =>
    have hroot : (⟨e :: edges, entry⟩ : Place) ≠ ⟨[], node.entry⟩ := by simp
    rw [places, List.mem_cons, or_iff_right hroot, Branches.mem_places_iff h, at?_cons, child?]
    cases hbranch : node.branches.branch? e with
    | none => simp
    | some content =>
      have hbelow := Branches.ordered_of_branch? h hbranch
      simpa using ih hbelow

end Node

/-! ## Order -/

/-- A node comes before all places below it. -/
theorem Branches.pairwise_cons_root (entry : Entry) {below : Branches}
    (h : below.places.Pairwise Place.Before) :
    (⟨[], entry⟩ :: below.places).Pairwise Place.Before := by
  refine List.Pairwise.cons ?_ h
  intro place hplace
  rcases List.exists_cons_of_ne_nil (edges_ne_nil_of_mem_places hplace) with ⟨e, edges, hedges⟩
  rw [Place.Before, hedges]
  exact .nil

theorem Branches.pairwise_behind (e : Edge) (entry : Entry) {below : Branches}
    (h : below.places.Pairwise Place.Before) :
    ((⟨[], entry⟩ :: below.places).map (Place.behind e)).Pairwise Place.Before :=
  List.pairwise_map.2 ((pairwise_cons_root entry h).imp List.Lex.cons)

/-- In preorder every place comes before those that follow it. -/
theorem Branches.pairwise_places {branches : Branches} (h : branches.Ordered) :
    branches.places.Pairwise Place.Before := by
  induction branches with
  | nil => exact .nil
  | wildcard entry below ih => exact pairwise_behind .wildcard entry (ih h)
  | literal text entry below rest ihbelow ihrest =>
    rcases h with ⟨habove, hbelow, hrest⟩
    refine List.pairwise_append.2 ⟨pairwise_behind _ entry (ihbelow hbelow), ihrest hrest, ?_⟩
    intro place hplace other hother
    rcases List.mem_map.1 hplace with ⟨below, -, rfl⟩
    rcases List.exists_cons_of_ne_nil (edges_ne_nil_of_mem_places hother) with ⟨e, edges, hedges⟩
    -- the other place lies behind a branch of `rest`
    rcases (mem_places_iff hrest e edges other.entry).1 (hedges ▸ hother) with ⟨content, hbranch, -⟩
    rw [Place.Before, hedges]
    refine .rel ?_
    cases e with
    | wildcard => exact Edge.before_wildcard text
    | literal t =>
      have hmem : t ∈ rest.literals := mem_literals_iff.2 (Option.isSome_of_eq_some hbranch)
      exact Edge.before_literal_iff.2 (habove t hmem)

namespace Node

/-- In preorder every place of a tree comes before those that follow it. -/
theorem pairwise_places {node : Node} (h : node.branches.Ordered) :
    (node.places.map Place.edges).Pairwise (List.Lex Edge.Before) :=
  List.pairwise_map.2 (Branches.pairwise_cons_root node.entry (Branches.pairwise_places h))

/-- The listing of a tree has the lines of its places. -/
theorem lines_eq_map_places (node : Node) (depth : Nat) :
    node.lines depth = node.places.map (Place.line depth) := by
  rw [lines, places, List.map_cons, Branches.lines_eq_map_places]
  rfl

end Node

end Routing
