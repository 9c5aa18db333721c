import Routing.Path.Segment

/-!
# The parameters of a path

A path has one parameter for every name that its segments carry. The parameters are listed in the
order in which their names first occur, and a name that occurs several times has the position of
its last occurrence.
-/

namespace Routing

/-- A parameter of a path: its name, and the index of the segment that binds it. -/
structure Parameter where
  name : String
  position : Nat
deriving DecidableEq, Repr

/-- Give a name a position: a name that is listed keeps its place, a new one is put last. -/
def bindParameter (name : String) (position : Nat) : List Parameter → List Parameter
  | [] => [⟨name, position⟩]
  | p :: ps =>
    if p.name = name then ⟨name, position⟩ :: ps
    else p :: bindParameter name position ps

namespace Path

/-- Enter one segment, found at an index, into a list of parameters. -/
def bindSegment (table : List Parameter) : Segment × Nat → List Parameter
  | (.parameter name, position) => bindParameter name position table
  | (.literal _, _) => table

/-- The parameters of the path. -/
def parameters (path : Path) : List Parameter :=
  path.segments.zipIdx.foldl bindSegment []

/-- The position of the parameter with a given name. -/
def positionOf? (path : Path) (name : String) : Option Nat :=
  (path.parameters.find? (·.name = name)).map (·.position)

end Path

end Routing
