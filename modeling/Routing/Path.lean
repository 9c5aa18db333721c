import Routing.Text.Blank
import Routing.Text.Pieces

/-!
# Paths in canonical form

* `Path` — the path of a route: a list of pieces, each of them non-empty, without a slash and
  without white space at either end.
* `Path.ofText` — reads any text as a path: cut it at its slashes, trim the stretches and leave out
  those of which nothing remains.
* `Path.text` — writes a path: a slash, then every piece with a slash behind it.

`Path.pieces_text` says that cutting the text of a path gives its pieces back, `Path.ofText_text`
that a path is what its text stands for.
-/

namespace Routing

open Text (slash)

/-- What a piece of a path has to be. -/
structure IsPathPiece (piece : String) : Prop where
  ne_empty : piece ≠ ""
  no_slash : slash ∉ piece.toList
  blankFreeEnds : Text.BlankFreeEnds piece.toList

/-- A path in canonical form. -/
@[ext]
structure Path where
  pieces : List String
  isPathPiece : ∀ piece ∈ pieces, IsPathPiece piece

namespace Path

instance : DecidableEq Path := fun p q =>
  decidable_of_iff (p.pieces = q.pieces) Path.ext_iff.symm

/-- The stretches of a text between its slashes, trimmed, without those that are blank. -/
def trimmedPieces (cs : List Char) : List (List Char) :=
  ((Text.cut cs).map Text.trim).filter (· ≠ [])

theorem isPathPiece_of_mem_trimmedPieces {cs piece : List Char} (h : piece ∈ trimmedPieces cs) :
    IsPathPiece (String.ofList piece) := by
  obtain ⟨hmem, hne⟩ := List.mem_filter.1 h
  obtain ⟨stretch, hstretch, rfl⟩ := List.mem_map.1 hmem
  constructor
  · intro hempty
    have : Text.trim stretch = [] := by simpa using congrArg String.toList hempty
    simp [this] at hne
  · rw [String.toList_ofList]
    intro hslash
    exact Text.slash_not_mem_of_mem_cut hstretch ((Text.trim_isInfix stretch).mem hslash)
  · rw [String.toList_ofList]
    exact Text.blankFreeEnds_trim stretch

/-- The path that a text stands for. -/
def ofText (raw : String) : Path where
  pieces := (trimmedPieces raw.toList).map String.ofList
  isPathPiece := by
    intro piece h
    obtain ⟨cs, hcs, rfl⟩ := List.mem_map.1 h
    exact isPathPiece_of_mem_trimmedPieces hcs

/-- The canonical text of a list of pieces: each has a slash behind it, and one stands in front. -/
def frame (pieces : List String) : String :=
  String.ofList (slash :: pieces.flatMap fun piece => piece.toList ++ [slash])

/-- The text of the path. -/
def text (path : Path) : String :=
  frame path.pieces

/-! ## Reading what was written -/

/-- The stretches of a framed text are the pieces, between two empty ones. -/
theorem cut_frame {pieces : List String} (h : ∀ piece ∈ pieces, IsPathPiece piece) :
    Text.cut (frame pieces).toList = [] :: (pieces.map String.toList ++ [[]]) := by
  have hbody : Text.cut (pieces.flatMap fun piece => piece.toList ++ [slash]) =
      pieces.map String.toList ++ [[]] := by
    induction pieces with
    | nil => simp [Text.cut]
    | cons piece pieces ih =>
      have hpiece : Text.cut piece.toList = [piece.toList] :=
        List.splitOn_eq_singleton (h piece List.mem_cons_self).no_slash
      have hothers := ih fun p hp => h p (List.mem_cons_of_mem _ hp)
      simp only [List.flatMap_cons, List.append_assoc, List.singleton_append]
      rw [Text.cut_append_slash, hpiece, hothers]
      rfl
  have hfront := Text.cut_append_slash [] (pieces.flatMap fun piece => piece.toList ++ [slash])
  rw [hbody] at hfront
  rw [frame, String.toList_ofList]
  simpa [Text.cut] using hfront

/-- Cutting the text of a path gives its pieces back. -/
theorem pieces_text (path : Path) :
    Text.pieces path.text.toList = path.pieces.map String.toList := by
  have hne : ∀ piece ∈ path.pieces, piece ≠ "" := by
    intro piece h
    exact (path.isPathPiece piece h).ne_empty
  rw [Text.pieces, text, cut_frame path.isPathPiece]
  simpa [List.filter_eq_self] using hne

/-- A path is what its text stands for. -/
theorem ofText_text (path : Path) : ofText path.text = path := by
  have htrim : (path.pieces.map String.toList).map Text.trim = path.pieces.map String.toList := by
    rw [List.map_map]
    exact List.map_congr_left fun piece h =>
      Text.trim_eq_self (path.isPathPiece piece h).blankFreeEnds
  have hempty : Text.trim [] = [] := rfl
  have hcut : trimmedPieces path.text.toList = path.pieces.map String.toList := by
    rw [← pieces_text, Text.pieces, trimmedPieces, text, cut_frame path.isPathPiece]
    rw [List.map_cons, List.map_append, htrim, List.map_singleton, hempty]
  apply Path.ext
  change (trimmedPieces path.text.toList).map String.ofList = path.pieces
  simp [hcut, Function.comp_def]

end Path

end Routing
