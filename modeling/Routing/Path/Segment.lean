import Routing.Path

/-!
# Segments of a path

A piece of a path that begins with a colon is a parameter and stands for any piece of a URL; any
other piece is a literal and stands for itself. `Edge` is what is left of a segment when the name
of a parameter is forgotten, and the edges of a path are its `shape`.
-/

namespace Routing

/-- The character that marks a parameter. -/
def parameterMark : Char := ':'

/-- One step of a path. -/
inductive Segment where
  | literal (text : String)
  | parameter (name : String)
deriving DecidableEq, Repr

/-- What a step of a path asks of a URL: one certain piece, or any piece. -/
inductive Edge where
  | literal (text : String)
  | wildcard
deriving DecidableEq, Repr

namespace Segment

/-- The segment that a piece stands for. The mark alone is a parameter with the empty name. -/
def ofPiece (piece : String) : Segment :=
  match piece.toList with
  | [] => .literal piece
  | c :: name => if c = parameterMark then .parameter (String.ofList name) else .literal piece

/-- The name of a parameter. -/
def name? : Segment → Option String
  | .literal _ => none
  | .parameter name => some name

/-- The piece as it is written in the path. -/
def text : Segment → String
  | .literal text => text
  | .parameter name => String.ofList (parameterMark :: name.toList)

/-- The segment without the name of its parameter. -/
def edge : Segment → Edge
  | .literal text => .literal text
  | .parameter _ => .wildcard

@[simp] theorem text_ofPiece (piece : String) : (ofPiece piece).text = piece := by
  unfold ofPiece
  cases hpiece : piece.toList with
  | nil => simp [text]
  | cons c name =>
    by_cases hc : c = parameterMark
    · have hback : String.ofList (parameterMark :: name) = piece := by
        rw [← hc, ← hpiece, String.ofList_toList]
      simpa [hc, text] using hback
    · simp [hc, text]

end Segment

namespace Path

/-- The segments of the path, in order. -/
def segments (path : Path) : List Segment :=
  path.pieces.map Segment.ofPiece

/-- The path without the names of its parameters. -/
def shape (path : Path) : List Edge :=
  path.segments.map Segment.edge

end Path

end Routing
