/-!
# The pieces of a slash-separated text

* `cut` — the stretches of a text between its slashes, empty ones included.
* `pieces` — the stretches that are not empty.

Cutting at one slash, `pieces_append_slash`, is the equation that the rest follows from.
-/

namespace Routing.Text

/-- The character that separates the pieces of a path or a URL. -/
def slash : Char := '/'

/-- The stretches between the slashes: one more than there are slashes. -/
def cut (cs : List Char) : List (List Char) :=
  cs.splitOn slash

/-- The stretches between the slashes that are not empty. -/
def pieces (cs : List Char) : List (List Char) :=
  (cut cs).filter (· ≠ [])

/-! ## No stretch holds a slash -/

theorem slash_not_mem_of_mem_cut {cs piece : List Char} (h : piece ∈ cut cs) : slash ∉ piece := by
  induction cs generalizing piece with
  | nil =>
    have : piece = [] := by simpa [cut] using h
    simp [this]
  | cons c cs ih =>
    rw [cut, List.splitOn_cons_eq_if_modifyHead] at h
    by_cases hc : c = slash
    · rcases (by simpa [hc] using h : piece = [] ∨ piece ∈ cs.splitOn slash) with rfl | h
      · simp
      · exact ih h
    · obtain ⟨first, others, hcut⟩ := List.exists_cons_of_ne_nil (List.splitOn_ne_nil slash cs)
      rcases (by simpa [hc, hcut] using h : piece = c :: first ∨ piece ∈ others) with rfl | h
      · have : slash ∉ first := ih (by simp [cut, hcut])
        simp [this, Ne.symm hc]
      · exact ih (by simp [cut, hcut, h])

/-! ## Pieces of a text put together -/

theorem cut_append_slash (left right : List Char) :
    cut (left ++ slash :: right) = cut left ++ cut right := by
  exact List.splitOn_append_cons_self left right

/-- The pieces before and after a slash are those of the two sides. -/
theorem pieces_append_slash (left right : List Char) :
    pieces (left ++ slash :: right) = pieces left ++ pieces right := by
  simp [pieces, cut_append_slash]

@[simp] theorem pieces_nil : pieces [] = [] := by
  simp [pieces, cut]

/-- A slash in front adds no piece. -/
@[simp] theorem pieces_cons_slash (cs : List Char) : pieces (slash :: cs) = pieces cs := by
  simpa using pieces_append_slash [] cs

/-- A text without a slash is one piece. -/
theorem pieces_eq_singleton {cs : List Char} (hne : cs ≠ []) (h : slash ∉ cs) :
    pieces cs = [cs] := by
  simp [pieces, cut, List.splitOn_eq_singleton h, hne]

/-- Slashes in front add no piece. -/
theorem pieces_dropWhile_slash (cs : List Char) :
    pieces (cs.dropWhile (· = slash)) = pieces cs := by
  induction cs with
  | nil => rfl
  | cons c cs ih =>
    by_cases hc : c = slash
    · simp [hc, ih]
    · simp [hc]

/-- The first piece of a text that begins with one goes up to the next slash. -/
theorem pieces_cons {c : Char} {cs : List Char} (hc : c ≠ slash) :
    pieces (c :: cs) =
      (c :: cs.takeWhile (· ≠ slash)) :: pieces (cs.dropWhile (· ≠ slash)) := by
  have hpiece : slash ∉ c :: cs.takeWhile (· ≠ slash) := by
    intro hmem
    rcases List.mem_cons.1 hmem with h | h
    · exact hc h.symm
    · simpa using List.all_eq_true.1 List.all_takeWhile _ h
  have hone := pieces_eq_singleton (List.cons_ne_nil _ _) hpiece
  have hall : c :: cs = (c :: cs.takeWhile (· ≠ slash)) ++ cs.dropWhile (· ≠ slash) := by
    simp
  cases hrest : cs.dropWhile (· ≠ slash) with
  | nil =>
    rw [hall, hrest, List.append_nil, hone]
    simp
  | cons d ds =>
    have hd : d = slash := by
      have := List.head?_dropWhile_not (· ≠ slash) cs
      rw [hrest] at this
      simpa using this
    rw [hall, hrest, hd, pieces_append_slash, hone]
    simp

end Routing.Text
