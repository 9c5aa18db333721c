/-!
# White space

* `CodePoints` — a set of characters. The character classes of this library are data of the Unicode
  standard, written as lists of inclusive ranges of code points.
* `isBlank` — the Unicode property `White_Space`, which is wider than `Char.isWhitespace`.
* `trim` — a text without the blanks at its two ends; `blankFreeEnds_trim` says that none are
  left there, `trim_eq_self` that a text with no blank at either end is kept.
-/

namespace Routing.Text

/-- A set of characters, given by inclusive ranges `(first, last)` of code points. -/
abbrev CodePoints := List (Nat × Nat)

/-- A character belongs to the set when one of the ranges holds its code point. -/
def CodePoints.contains (set : CodePoints) (c : Char) : Bool :=
  set.any fun (first, last) => first ≤ c.toNat && c.toNat ≤ last

/-- The code points with the Unicode property `White_Space`. -/
def blanks : CodePoints :=
  [(0x9, 0xd), (0x20, 0x20), (0x85, 0x85), (0xa0, 0xa0), (0x1680, 0x1680), (0x2000, 0x200a),
   (0x2028, 0x2029), (0x202f, 0x202f), (0x205f, 0x205f), (0x3000, 0x3000)]

/-- White space in the sense of Unicode. -/
def isBlank (c : Char) : Bool :=
  blanks.contains c

/-- The text without its leading blanks. -/
def trimStart (cs : List Char) : List Char :=
  cs.dropWhile isBlank

/-- The text without the blanks at its end. -/
def trimEnd (cs : List Char) : List Char :=
  (cs.reverse.dropWhile isBlank).reverse

/-- The text without the blanks at either end; blanks inside it stay. -/
def trim (cs : List Char) : List Char :=
  trimEnd (trimStart cs)

/-- No blank stands first or last. -/
def BlankFreeEnds (cs : List Char) : Prop :=
  (∀ c ∈ cs.head?, isBlank c = false) ∧ (∀ c ∈ cs.getLast?, isBlank c = false)

/-! ## What trimming leaves -/

theorem trimStart_suffix (cs : List Char) : trimStart cs <:+ cs :=
  List.dropWhile_suffix isBlank

theorem trimEnd_isPrefix (cs : List Char) : trimEnd cs <+: cs := by
  have h := List.dropWhile_suffix isBlank (l := cs.reverse)
  simpa [trimEnd] using List.reverse_prefix.2 h

/-- Trimming only drops characters. -/
theorem trim_isInfix (cs : List Char) : trim cs <:+: cs :=
  (trimEnd_isPrefix _).isInfix.trans (trimStart_suffix cs).isInfix

theorem head?_trimStart (cs : List Char) : ∀ c ∈ (trimStart cs).head?, isBlank c = false := by
  induction cs with
  | nil => simp [trimStart]
  | cons d ds ih =>
    cases hd : isBlank d with
    | true => simpa [trimStart, hd] using ih
    | false => simp [trimStart, hd]

theorem getLast?_trimEnd (cs : List Char) : ∀ c ∈ (trimEnd cs).getLast?, isBlank c = false := by
  simpa [trimEnd, trimStart] using head?_trimStart cs.reverse

/-- Trimming leaves no blank at either end. -/
theorem blankFreeEnds_trim (cs : List Char) : BlankFreeEnds (trim cs) := by
  refine ⟨?_, getLast?_trimEnd _⟩
  intro c hc
  obtain ⟨tail, htail⟩ := trimEnd_isPrefix (trimStart cs)
  apply head?_trimStart cs c
  rw [← htail]
  have hhead : (trimEnd (trimStart cs)).head? = some c := by simpa [trim] using hc
  cases hcut : trimEnd (trimStart cs) with
  | nil => simp [hcut] at hhead
  | cons d ds => simpa [hcut] using hhead

theorem trimStart_eq_self {cs : List Char} (h : ∀ c ∈ cs.head?, isBlank c = false) :
    trimStart cs = cs := by
  cases cs with
  | nil => rfl
  | cons d ds => simp [trimStart, h d (by simp)]

theorem trimEnd_eq_self {cs : List Char} (h : ∀ c ∈ cs.getLast?, isBlank c = false) :
    trimEnd cs = cs := by
  have hrev : trimStart cs.reverse = cs.reverse := trimStart_eq_self (by simpa using h)
  simpa [trimEnd, trimStart] using congrArg List.reverse hrev

/-- A text with no blank at either end is kept as it is. -/
theorem trim_eq_self {cs : List Char} (h : BlankFreeEnds cs) : trim cs = cs := by
  rw [trim, trimStart_eq_self h.1, trimEnd_eq_self h.2]

end Routing.Text
