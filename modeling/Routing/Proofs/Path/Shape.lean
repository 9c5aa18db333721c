import Mathlib
import Routing.Path.Segment

/-!
# Segments, shapes and names of a path

A segment is read from a piece of a path, and its edge is what a tree keeps of it. The shape of a
path begins with some edges exactly when its segments have these edges, one by one.
-/

namespace Routing

/-- A list begins with one more element when this one comes next. -/
theorem concat_isPrefix_iff {α : Type} {front whole : List α} {a : α} :
    front ++ [a] <+: whole ↔ front <+: whole ∧ whole[front.length]? = some a := by
  constructor
  · rintro ⟨back, rfl⟩
    refine ⟨⟨a :: back, by simp⟩, ?_⟩
    simp
  · rintro ⟨⟨back, rfl⟩, ha⟩
    rw [List.getElem?_append_right (Nat.le_refl _), Nat.sub_self] at ha
    cases back with
    | nil => simp at ha
    | cons b back =>
      obtain rfl : b = a := by simpa using ha
      exact ⟨back, by simp⟩

namespace Segment

/-- Only a piece without the mark of a parameter is a literal, and it stands for itself. -/
theorem ofPiece_eq_literal_iff {piece text : String} :
    ofPiece piece = .literal text ↔ piece = text ∧ piece.toList.head? ≠ some parameterMark := by
  unfold ofPiece
  cases hpiece : piece.toList with
  | nil => simp
  | cons c name =>
    by_cases hc : c = parameterMark
    · simp [hc]
    · simp [hc]

theorem edge_eq_literal_iff {s : Segment} {text : String} :
    s.edge = .literal text ↔ s = .literal text := by
  cases s <;> simp [edge]

theorem name?_eq_some_iff {s : Segment} {name : String} :
    s.name? = some name ↔ s = .parameter name := by
  cases s <;> simp [name?]

end Segment

namespace Path

/-- The name that a path gives to the last of its first edges, when this one is a parameter. -/
def nameInto? (path : Path) (edges : List Edge) : Option String :=
  (path.segments.take edges.length).getLast?.bind Segment.name?

@[simp] theorem length_shape (path : Path) : path.shape.length = path.segments.length := by
  simp [shape]

theorem nameInto?_nil (path : Path) : path.nameInto? [] = none := rfl

theorem nameInto?_concat (path : Path) (edges : List Edge) (e : Edge)
    (h : edges ++ [e] <+: path.shape) :
    path.nameInto? (edges ++ [e]) = path.segments[edges.length]?.bind Segment.name? := by
  have hlen : edges.length < path.segments.length := by
    have := h.length_le
    simp only [List.length_append, List.length_singleton, length_shape] at this
    omega
  have hsome : path.segments[edges.length]? = some path.segments[edges.length] :=
    List.getElem?_eq_getElem hlen
  -- the last of the first `n + 1` segments is the one with index `n`
  rw [nameInto?, List.getLast?_take, if_neg (by simp), List.length_append, List.length_singleton,
    Nat.add_sub_cancel, hsome, Option.some_or]

/-- The segment behind the edges that a shape begins with. -/
theorem concat_isPrefix_shape_iff {path : Path} {edges : List Edge} {e : Edge} :
    edges ++ [e] <+: path.shape ↔
      edges <+: path.shape ∧ ∃ s, path.segments[edges.length]? = some s ∧ s.edge = e := by
  rw [concat_isPrefix_iff, shape, List.getElem?_map, Option.map_eq_some_iff]

theorem getElem?_shape_eq_literal_iff {path : Path} {i : Nat} {text : String} :
    path.shape[i]? = some (.literal text) ↔ path.segments[i]? = some (.literal text) := by
  rw [shape, List.getElem?_map, Option.map_eq_some_iff]
  simp [Segment.edge_eq_literal_iff]

theorem getElem?_shape_eq_wildcard_iff {path : Path} {i : Nat} :
    path.shape[i]? = some .wildcard ↔ ∃ name, path.segments[i]? = some (.parameter name) := by
  rw [shape, List.getElem?_map]
  cases path.segments[i]? with
  | none => simp
  | some s => cases s <;> simp [Segment.edge]

/-- A shape begins with some first edges and a literal when its own first edges are the same and
its path has the literal behind them. -/
theorem take_concat_literal_isPrefix_shape_iff {path : Path} {edges : List Edge} {i : Nat}
    {text : String} (hi : i ≤ edges.length) :
    edges.take i ++ [.literal text] <+: path.shape ↔
      path.shape.take i = edges.take i ∧ path.segments[i]? = some (.literal text) := by
  have hlen : (edges.take i).length = i := by
    rw [List.length_take]
    omega
  rw [concat_isPrefix_iff, hlen, getElem?_shape_eq_literal_iff, List.prefix_iff_eq_take, hlen]
  exact and_congr_left' eq_comm

/-- A path names an edge exactly when the edge is a wildcard. -/
theorem nameInto?_isSome_iff (path : Path) (edges : List Edge) (h : edges <+: path.shape) :
    (path.nameInto? edges).isSome ↔ edges.getLast? = some .wildcard := by
  rcases List.eq_nil_or_concat' edges with rfl | ⟨front, e, rfl⟩
  · simp [nameInto?_nil]
  · rcases concat_isPrefix_shape_iff.1 h with ⟨-, s, hs, rfl⟩
    rw [nameInto?_concat _ _ _ h, List.getLast?_concat, hs]
    cases s <;> simp [Segment.name?, Segment.edge]

/-- A literal segment is not empty, holds no slash and does not begin with the mark. -/
theorem literal_mem_segments {path : Path} {text : String} (h : .literal text ∈ path.segments) :
    IsPathPiece text ∧ text.toList.head? ≠ some parameterMark := by
  rcases List.mem_map.1 h with ⟨piece, hpiece, hread⟩
  rcases Segment.ofPiece_eq_literal_iff.1 hread with ⟨rfl, hmark⟩
  exact ⟨path.isPathPiece _ hpiece, hmark⟩

end Path

end Routing
