import Mathlib
import Routing.Path
import Routing.Url

/-!
# The canonical form of a path

Which pieces a text has as a path can be said without a way to find them. The text is put together
from stretches with a slash between any two, and a piece is what is left of a stretch between the
blanks at its ends. Writing these pieces out gives the canonical text, which has the same pieces: two
texts have one canonical text exactly when they have the same pieces.

* `Text.Trims` — what is left of a text between the blanks at its ends.
* `Path.Reads` — the pieces that a text has as a path.
* `Path.reads_iff` — a path read from a text has these pieces and no others.
* `Url.pieces_frame` — pieces that are written out are found again.
* `Path.ofText_canonical` — reading and writing out again is a canonical form.
-/

namespace Routing

namespace Text

/-! ## What trimming leaves -/

/-- What is left of a text between the blanks at its two ends. -/
structure Trims (cs left : List Char) : Prop where
  between : ∃ front back, cs = front ++ left ++ back ∧ (∀ c ∈ front, isBlank c) ∧
    ∀ c ∈ back, isBlank c
  ends : BlankFreeEnds left

theorem trimStart_append_of_blank {front : List Char} (h : ∀ c ∈ front, isBlank c)
    (cs : List Char) : trimStart (front ++ cs) = trimStart cs :=
  List.dropWhile_append_of_pos h

theorem trimEnd_append_of_blank {back : List Char} (h : ∀ c ∈ back, isBlank c)
    (cs : List Char) : trimEnd (cs ++ back) = trimEnd cs := by
  have hback : ∀ c ∈ back.reverse, isBlank c := by
    intro c hc
    exact h c (List.mem_reverse.1 hc)
  rw [trimEnd, List.reverse_append, List.dropWhile_append_of_pos hback, trimEnd]

/-- Only blanks are taken away at the front. -/
theorem exists_append_trimStart (cs : List Char) :
    ∃ front, cs = front ++ trimStart cs ∧ ∀ c ∈ front, isBlank c := by
  refine ⟨cs.takeWhile isBlank, List.takeWhile_append_dropWhile.symm, ?_⟩
  intro c hc
  exact List.mem_takeWhile_imp hc

/-- Only blanks are taken away at the end. -/
theorem exists_trimEnd_append (cs : List Char) :
    ∃ back, cs = trimEnd cs ++ back ∧ ∀ c ∈ back, isBlank c := by
  rcases exists_append_trimStart cs.reverse with ⟨front, hfront, hblank⟩
  refine ⟨front.reverse, ?_, ?_⟩
  · have hreverse := congrArg List.reverse hfront
    rw [List.reverse_reverse, List.reverse_append] at hreverse
    exact hreverse
  · intro c hc
    exact hblank c (List.mem_reverse.1 hc)

theorem trims_trim (cs : List Char) : Trims cs (trim cs) := by
  rcases exists_append_trimStart cs with ⟨front, hfront, hfrontBlank⟩
  rcases exists_trimEnd_append (trimStart cs) with ⟨back, hback, hbackBlank⟩
  refine ⟨⟨front, back, ?_, hfrontBlank, hbackBlank⟩, blankFreeEnds_trim cs⟩
  rw [trim, List.append_assoc, ← hback]
  exact hfront

/-- Trimming leaves what stands between the blanks, and nothing else can be left. -/
theorem trims_iff {cs left : List Char} : Trims cs left ↔ left = trim cs := by
  constructor
  · rintro ⟨⟨front, back, rfl, hfront, hback⟩, hends⟩
    rw [trim, List.append_assoc, trimStart_append_of_blank hfront]
    cases left with
    | nil =>
      have hnil : trimStart back = [] := List.dropWhile_eq_nil_iff.2 hback
      rw [List.nil_append, hnil]
      rfl
    | cons c cs =>
      -- the first character is no blank, so the front ends here
      have hstart : trimStart (c :: cs ++ back) = c :: cs ++ back :=
        trimStart_eq_self (by simpa using hends.1)
      rw [hstart, trimEnd_append_of_blank hback, trimEnd_eq_self hends.2]
  · rintro rfl
    exact trims_trim cs

theorem forall₂_trims_iff {stretches lefts : List (List Char)} :
    List.Forall₂ Trims stretches lefts ↔ lefts = stretches.map trim := by
  rw [eq_comm, ← List.forall₂_eq_eq_eq, List.forall₂_map_left_iff]
  constructor
  · intro h
    exact h.imp fun _ _ htrims => (trims_iff.1 htrims).symm
  · intro h
    exact h.imp fun _ _ heq => trims_iff.2 heq.symm

/-- The stretches between the slashes are the only way to put a text together with slashes. -/
theorem eq_cut_iff {cs : List Char} {stretches : List (List Char)} :
    stretches = cut cs ↔
      stretches ≠ [] ∧ (∀ stretch ∈ stretches, slash ∉ stretch) ∧
        cs = [slash].intercalate stretches := by
  constructor
  · rintro rfl
    refine ⟨List.splitOn_ne_nil slash cs, ?_, (List.intercalate_splitOn slash).symm⟩
    intro stretch hstretch
    exact slash_not_mem_of_mem_cut hstretch
  · rintro ⟨hne, hfree, rfl⟩
    exact (List.splitOn_intercalate slash hfree hne).symm

end Text

open Text (slash)

/-! ## The pieces of a text -/

/-- The pieces that a text has as a path. The text is put together from stretches without a slash,
with a slash between any two of them. A piece is what is left of a stretch between the blanks at its
ends, and a stretch of which nothing is left gives no piece. -/
def Path.Reads (raw : String) (pieces : List String) : Prop :=
  ∃ stretches lefts : List (List Char),
    stretches ≠ [] ∧ (∀ stretch ∈ stretches, slash ∉ stretch) ∧
    raw.toList = [slash].intercalate stretches ∧
    List.Forall₂ Text.Trims stretches lefts ∧
    pieces.map String.toList = lefts.filter (· ≠ [])

/-- The pieces of a written path are found again. -/
theorem Url.pieces_frame {pieces : List String} (h : ∀ piece ∈ pieces, IsPathPiece piece) :
    Url.pieces (Path.frame pieces) = pieces := by
  have hread : Text.pieces (Path.frame pieces).toList = pieces.map String.toList :=
    Path.pieces_text ⟨pieces, h⟩
  rw [Url.pieces, hread, List.map_map]
  simp [Function.comp_def]

namespace Path

theorem reads_iff {raw : String} {pieces : List String} :
    Reads raw pieces ↔ pieces = (ofText raw).pieces := by
  have hpieces : (ofText raw).pieces.map String.toList = trimmedPieces raw.toList := by
    simp [ofText, Function.comp_def]
  have hinjective : Function.Injective (List.map String.toList) :=
    List.map_injective_iff.2 fun _ _ => String.toList_injective
  rw [← hinjective.eq_iff, hpieces]
  constructor
  · rintro ⟨stretches, lefts, hne, hfree, hraw, htrims, hkept⟩
    rw [hkept, trimmedPieces, ← Text.eq_cut_iff.2 ⟨hne, hfree, hraw⟩,
      ← Text.forall₂_trims_iff.1 htrims]
  · intro hkept
    rcases Text.eq_cut_iff.1 (Eq.refl (Text.cut raw.toList)) with ⟨hne, hfree, hraw⟩
    exact ⟨_, _, hne, hfree, hraw, Text.forall₂_trims_iff.2 rfl, hkept⟩

/-- Different paths have different texts. -/
theorem text_injective : Function.Injective text := by
  intro path other h
  rw [← ofText_text path, h, ofText_text]

/-- A written path is a slash, and then every piece with a slash behind it. -/
theorem frame_eq (pieces : List String) :
    frame pieces = "/" ++ String.join (pieces.map (· ++ "/")) := by
  apply String.toList_injective
  simp [frame, slash, List.flatMap_map]

/-- The texts of paths are the written lists of pieces. -/
theorem exists_ofText_text_iff {written : String} :
    (∃ raw, (ofText raw).text = written) ↔
      ∃ pieces, (∀ piece ∈ pieces, IsPathPiece piece) ∧ written = frame pieces := by
  constructor
  · rintro ⟨raw, rfl⟩
    exact ⟨(ofText raw).pieces, (ofText raw).isPathPiece, rfl⟩
  · rintro ⟨pieces, h, rfl⟩
    exact ⟨frame pieces, congrArg text (ofText_text ⟨pieces, h⟩)⟩

/-- Reading a text as a path and writing the path out is a canonical form. Every text has its pieces,
and these are what a URL reads from the written path. A written path is written again as it is. Two
texts are written alike when they have the same pieces, and only then. What can be written is a
slash followed by any pieces with a slash behind each of them, where a piece is a non-empty text with
no slash in it and no blank at its ends, and the pieces are read back from such a text. -/
theorem ofText_canonical :
    (∀ raw, ∃! pieces, Reads raw pieces) ∧
    (∀ raw pieces, Reads raw pieces → Url.pieces (ofText raw).text = pieces) ∧
    (∀ raw, (ofText (ofText raw).text).text = (ofText raw).text) ∧
    (∀ raw raw', (ofText raw).text = (ofText raw').text ↔
      ∀ pieces, Reads raw pieces ↔ Reads raw' pieces) ∧
    (∀ written, (∃ raw, (ofText raw).text = written) ↔
      ∃ pieces : List String, (∀ piece ∈ pieces, IsPathPiece piece) ∧
        written = "/" ++ String.join (pieces.map (· ++ "/"))) ∧
    (∀ pieces : List String, (∀ piece ∈ pieces, IsPathPiece piece) →
      Url.pieces ("/" ++ String.join (pieces.map (· ++ "/"))) = pieces) := by
  simp only [reads_iff, ← frame_eq]
  refine ⟨?_, ?_, ?_, ?_, fun _ => exists_ofText_text_iff, fun _ => Url.pieces_frame⟩
  · intro raw
    exact ⟨_, rfl, fun _ h => h⟩
  · rintro raw pieces rfl
    exact Url.pieces_frame (ofText raw).isPathPiece
  · intro raw
    rw [ofText_text]
  · intro raw raw'
    rw [text_injective.eq_iff, Path.ext_iff]
    constructor
    · intro h pieces
      rw [h]
    · intro h
      exact (h _).1 rfl

/-- Blanks around a piece are left out, those inside it stay, and a stretch of blanks is no piece. -/
theorem ofText_canonical_padded :
    Reads " a b /\u00a0/:id" ["a b", ":id"] ∧
      Url.pieces (ofText " a b /\u00a0/:id").text = ["a b", ":id"] ∧
      (∀ piece ∈ ["a b", ":id"], IsPathPiece piece) ∧
      Url.pieces "/a b/:id/" = ["a b", ":id"] := by
  have hreads : Reads " a b /\u00a0/:id" ["a b", ":id"] := reads_iff.2 (by decide)
  have hpieces : ∀ piece ∈ ["a b", ":id"], IsPathPiece piece := by
    rw [reads_iff.1 hreads]
    exact (ofText _).isPathPiece
  exact ⟨hreads, ofText_canonical.2.1 _ _ hreads, hpieces, ofText_canonical.2.2.2.2.2 _ hpieces⟩

end Path

end Routing
