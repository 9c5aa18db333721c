import Routing.Proofs.Tree.Insertion

/-!
# The order of branches

The literal branches of a node stand in ascending order of their texts, so no text has two
branches. Insertions keep this order at every level, and a node reached by edges has it too.
-/

namespace Routing

namespace Branches

/-- At every level the texts of literal branches ascend. -/
def Ordered : Branches → Prop
  | .nil => True
  | .wildcard _ below => below.Ordered
  | .literal text _ below rest => (∀ t ∈ rest.literals, text < t) ∧ below.Ordered ∧ rest.Ordered

theorem pairwise_literals {branches : Branches} (h : branches.Ordered) :
    branches.literals.Pairwise (· < ·) := by
  induction branches with
  | nil => exact List.Pairwise.nil
  | wildcard entry below => exact List.Pairwise.nil
  | literal text entry below rest _ ih => exact List.Pairwise.cons h.1 (ih h.2.2)

/-- A text has a branch exactly when it is listed. -/
theorem mem_literals_iff {branches : Branches} {t : String} :
    t ∈ branches.literals ↔ (branches.literal? t).isSome := by
  induction branches with
  | nil => simp [literals, literal?]
  | wildcard entry below => simp [literals, literal?]
  | literal text entry below rest _ ih =>
    by_cases ht : text = t
    · simp [literals, literal?, ht]
    · simp [literals, literal?, ht, ih, Ne.symm ht]

/-! ## Changing one branch -/

theorem mem_literals_placeLiteral {text : String} {new : Entry × Branches} {branches : Branches}
    {t : String} :
    t ∈ (branches.placeLiteral text new).literals ↔ t = text ∨ t ∈ branches.literals := by
  induction branches with
  | nil => simp [placeLiteral, literals]
  | wildcard entry below => simp [placeLiteral, literals]
  | literal u entry below rest _ ih =>
    by_cases hlt : text < u
    · simp [placeLiteral, hlt, literals]
    · rw [placeLiteral, if_neg hlt, literals, List.mem_cons, ih, literals, List.mem_cons]
      exact or_left_comm

theorem literals_modifyLiteral (text : String) (change : Entry → Branches → Entry × Branches)
    (branches : Branches) : (branches.modifyLiteral text change).literals = branches.literals := by
  induction branches with
  | nil => rfl
  | wildcard entry below => rfl
  | literal u entry below rest _ ih =>
    by_cases hu : u = text
    · simp [modifyLiteral, hu, literals]
    · simp [modifyLiteral, hu, literals, ih]

theorem literals_alterWildcard (change : Entry → Branches → Entry × Branches)
    (branches : Branches) : (branches.alterWildcard change).literals = branches.literals := by
  induction branches with
  | nil => rfl
  | wildcard entry below => rfl
  | literal u entry below rest _ ih => simp [alterWildcard, literals, ih]

theorem ordered_placeLiteral {text : String} {new : Entry × Branches} {branches : Branches}
    (hnew : new.2.Ordered) (h : branches.Ordered) (habsent : text ∉ branches.literals) :
    (branches.placeLiteral text new).Ordered := by
  induction branches with
  | nil => exact ⟨by simp [literals], hnew, trivial⟩
  | wildcard entry below => exact ⟨by simp [literals], hnew, h⟩
  | literal u entry below rest _ ih =>
    rcases h with ⟨habove, hbelow, hrest⟩
    by_cases hlt : text < u
    · -- the new text comes before `u`, and `u` before all others
      rw [placeLiteral, if_pos hlt]
      refine ⟨?_, hnew, habove, hbelow, hrest⟩
      intro t ht
      rcases List.mem_cons.1 ht with rfl | ht
      · exact hlt
      · exact lt_trans hlt (habove t ht)
    · rw [placeLiteral, if_neg hlt]
      have hne : text ≠ u := by
        rintro rfl
        exact habsent List.mem_cons_self
      have hgt : u < text := lt_of_le_of_ne (not_lt.1 hlt) hne.symm
      refine ⟨?_, hbelow, ih hrest fun hmem => habsent (List.mem_cons_of_mem _ hmem)⟩
      intro t ht
      rcases mem_literals_placeLiteral.1 ht with rfl | ht
      · exact hgt
      · exact habove t ht

theorem ordered_modifyLiteral {text : String} {change : Entry → Branches → Entry × Branches}
    (hchange : ∀ entry below, below.Ordered → (change entry below).2.Ordered)
    {branches : Branches} (h : branches.Ordered) : (branches.modifyLiteral text change).Ordered := by
  induction branches with
  | nil => exact h
  | wildcard entry below => exact h
  | literal u entry below rest _ ih =>
    rcases h with ⟨habove, hbelow, hrest⟩
    by_cases hu : u = text
    · rw [modifyLiteral, if_pos hu]
      exact ⟨habove, hchange _ _ hbelow, hrest⟩
    · rw [modifyLiteral, if_neg hu]
      exact ⟨by rwa [literals_modifyLiteral], hbelow, ih hrest⟩

theorem ordered_alterLiteral {text : String} {change : Entry → Branches → Entry × Branches}
    (hchange : ∀ entry below, below.Ordered → (change entry below).2.Ordered)
    {branches : Branches} (h : branches.Ordered) : (branches.alterLiteral text change).Ordered := by
  unfold alterLiteral
  split
  · exact ordered_modifyLiteral hchange h
  · rename_i habsent
    exact ordered_placeLiteral (hchange _ _ trivial) h (by rwa [mem_literals_iff])

theorem ordered_alterWildcard {change : Entry → Branches → Entry × Branches}
    (hchange : ∀ entry below, below.Ordered → (change entry below).2.Ordered)
    {branches : Branches} (h : branches.Ordered) : (branches.alterWildcard change).Ordered := by
  induction branches with
  | nil => exact hchange (.new (some .wildcard)) .nil trivial
  | wildcard entry below => exact hchange entry below h
  | literal u entry below rest _ ih =>
    rcases h with ⟨habove, hbelow, hrest⟩
    exact ⟨by rwa [literals_alterWildcard], hbelow, ih hrest⟩

/-- An insertion keeps the order at every level. -/
theorem ordered_insert (id : Nat) (segments : List Segment) (entry : Entry) {branches : Branches}
    (h : branches.Ordered) : (Branches.insert id segments entry branches).2.Ordered := by
  -- a new node is ordered as well, since the insertion goes on in an empty one
  induction segments generalizing entry branches with
  | nil => exact h
  | cons s segments ih =>
    cases s with
    | literal text => exact ordered_alterLiteral (fun entry _ hbelow => ih entry hbelow) h
    | parameter name =>
      exact ordered_alterWildcard (fun entry _ hbelow => ih (entry.addName id name) hbelow) h

/-- What lies below a branch is ordered when all branches are. -/
theorem ordered_of_branch? {branches : Branches} (h : branches.Ordered) {e : Edge}
    {content : Entry × Branches} (hbranch : branches.branch? e = some content) :
    content.2.Ordered := by
  induction branches with
  | nil => cases e <;> simp [branch?, literal?, wildcard?] at hbranch
  | wildcard entry below =>
    cases e with
    | literal text => simp [branch?, literal?] at hbranch
    | wildcard =>
      obtain rfl : (entry, below) = content := by simpa [branch?, wildcard?] using hbranch
      exact h
  | literal text entry below rest _ ih =>
    rcases h with ⟨-, hbelow, hrest⟩
    cases e with
    | wildcard => exact ih hrest hbranch
    | literal t =>
      by_cases ht : text = t
      · obtain rfl : (entry, below) = content := by simpa [branch?, literal?, ht] using hbranch
        exact hbelow
      · exact ih hrest (by simpa [branch?, literal?, ht] using hbranch)

end Branches

namespace Node

variable {H : Type}

theorem ordered_ofRoutes (routes : List (Route H)) : (ofRoutes routes).branches.Ordered := by
  suffices h : ∀ root : Node, root.branches.Ordered → (routes.foldl insert root).branches.Ordered by
    exact h (.new none) trivial
  induction routes with
  | nil => exact fun _ h => h
  | cons route routes ih => exact fun root h => ih _ (Branches.ordered_insert _ _ _ h)

theorem ordered_at? {node last : Node} {edges : List Edge} (h : node.branches.Ordered)
    (hat : node.at? edges = some last) : last.branches.Ordered := by
  induction edges generalizing node with
  | nil =>
    obtain rfl : node = last := Option.some.inj hat
    exact h
  | cons e edges ih =>
    rcases Option.bind_eq_some_iff.1 hat with ⟨child, hchild, hat⟩
    rcases Option.map_eq_some_iff.1 hchild with ⟨content, hbranch, rfl⟩
    exact ih (Branches.ordered_of_branch? h hbranch) hat

end Node

end Routing
