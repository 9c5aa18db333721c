import Routing.Proofs.Path.Bindings
import Routing.Proofs.Path.Canonical

/-!
# The table of parameters

The pieces of a path are read once from left to right, and a name that comes again gets a new position
in the row that it has. So the rows stand in the order of the first places of their names, while the
positions are the last places, and the two orders need not agree.

* `Segment.ofPiece_eq_parameter_iff` — the pieces that carry a name.
* `pairwise_first_tableOf` — rows stand in the order of first places.
* `Path.lastAt_iff_isGreatest` — the last place of a name is the greatest.
* `Route.parameters_by_places` — the table of a route, read off the pieces of its path.
-/

namespace Routing

variable {H : Type}

/-! ## Pieces that carry a name -/

/-- A piece is a parameter when it is the mark with the name behind it. -/
theorem Segment.ofPiece_eq_parameter_iff {piece name : String} :
    ofPiece piece = .parameter name ↔ piece = ":" ++ name := by
  have htext : (Segment.parameter name).text = ":" ++ name := by
    apply String.toList_injective
    simp [Segment.text, parameterMark]
  constructor
  · intro h
    rw [← htext, ← h, text_ofPiece]
  · rintro rfl
    simp [ofPiece, parameterMark]

namespace Path

theorem getElem?_segments_eq_parameter_iff {path : Path} {i : Nat} {name : String} :
    path.segments[i]? = some (.parameter name) ↔ path.pieces[i]? = some (":" ++ name) := by
  rw [segments, List.getElem?_map, Option.map_eq_some_iff]
  simp only [Segment.ofPiece_eq_parameter_iff, exists_eq_right]

theorem parameter_mem_segments_iff {path : Path} {name : String} :
    Segment.parameter name ∈ path.segments ↔ ":" ++ name ∈ path.pieces := by
  simp only [List.mem_iff_getElem?, getElem?_segments_eq_parameter_iff]

/-- A name has the same first place among the segments and among the pieces. -/
theorem idxOf_segments (path : Path) (name : String) :
    path.segments.idxOf (.parameter name) = path.pieces.idxOf (":" ++ name) := by
  rw [segments, List.idxOf, List.findIdx_map, List.idxOf]
  congr 1
  funext piece
  rw [Function.comp_apply, Bool.eq_iff_iff, beq_iff_eq, beq_iff_eq,
    Segment.ofPiece_eq_parameter_iff]

/-- The last place of a name is the greatest of its places. -/
theorem lastAt_iff_isGreatest {path : Path} {name : String} {position : Nat} :
    LastAt path.segments name position ↔
      IsGreatest {i | path.pieces[i]? = some (":" ++ name)} position := by
  rw [LastAt, IsGreatest, getElem?_segments_eq_parameter_iff]
  refine and_congr_right fun _ => ?_
  simp only [ne_eq, getElem?_segments_eq_parameter_iff]
  constructor
  · intro h later hlater
    by_contra hlt
    exact h later (not_le.1 hlt) hlater
  · intro h later hlt hlater
    exact not_le.2 hlt (h hlater)

end Path

/-! ## The rows -/

/-- A name is listed when a segment carries it. -/
theorem mem_names_tableOf_iff {segments : List Segment} {name : String} :
    name ∈ (tableOf segments).map (·.name) ↔ Segment.parameter name ∈ segments := by
  rw [List.mem_map]
  constructor
  · rintro ⟨p, hp, rfl⟩
    exact List.mem_of_getElem? (mem_tableOf_iff.1 hp).1
  · intro h
    rcases existsUnique_lastAt h with ⟨position, hlast, -⟩
    exact ⟨⟨name, position⟩, mem_tableOf_iff.2 hlast, rfl⟩

/-- The rows stand in the order in which their names come first. -/
theorem pairwise_first_tableOf (segments : List Segment) :
    ((tableOf segments).map (·.name)).Pairwise fun name other =>
      segments.idxOf (.parameter name) < segments.idxOf (.parameter other) := by
  induction segments using List.reverseRecOn with
  | nil => exact .nil
  | append_singleton segments s ih =>
    -- the first place of a name that is listed already does not change
    have hold : ((tableOf segments).map (·.name)).Pairwise fun name other =>
        (segments ++ [s]).idxOf (.parameter name) < (segments ++ [s]).idxOf (.parameter other) := by
      refine ih.imp_of_mem ?_
      intro name other hname hother hlt
      rw [List.idxOf_append_of_mem (mem_names_tableOf_iff.1 hname),
        List.idxOf_append_of_mem (mem_names_tableOf_iff.1 hother)]
      exact hlt
    rw [tableOf_concat]
    cases s with
    | literal text => exact hold
    | parameter own =>
      rw [Path.bindSegment, names_bindParameter]
      by_cases hown : own ∈ (tableOf segments).map (·.name)
      · rwa [if_pos hown]
      · rw [if_neg hown, List.pairwise_append]
        refine ⟨hold, List.pairwise_singleton _ _, ?_⟩
        intro name hname other hother
        obtain rfl : other = own := List.mem_singleton.1 hother
        -- a new name comes first behind all segments read before
        have hmem := mem_names_tableOf_iff.1 hname
        rw [mem_names_tableOf_iff] at hown
        rw [List.idxOf_append_of_mem hmem, List.idxOf_append_of_notMem hown]
        exact Nat.lt_of_lt_of_le (List.idxOf_lt_length_iff.2 hmem) (Nat.le_add_right _ _)

/-- No two rows have the same position, since a segment carries one name. -/
theorem nodup_positions_tableOf (segments : List Segment) :
    ((tableOf segments).map (·.position)).Nodup := by
  have hnodup : (tableOf segments).Nodup := (nodup_names_tableOf segments).of_map
  refine (List.nodup_map_iff_inj_on hnodup).2 ?_
  intro p hp q hq hposition
  have hsegment := (mem_tableOf_iff.1 hp).1
  rw [hposition, (mem_tableOf_iff.1 hq).1] at hsegment
  have hname : p.name = q.name := by simpa using hsegment.symm
  exact List.inj_on_of_nodup_map (nodup_names_tableOf segments) hp hq hname

theorem Path.positionOf?_eq_none_iff {path : Path} {name : String} :
    path.positionOf? name = none ↔ name ∉ (tableOf path.segments).map (·.name) := by
  rw [positionOf?, parameters_eq_tableOf, Option.map_eq_none_iff, List.find?_eq_none]
  simp

/-! ## The table of a route -/

/-- The table of parameters of a route, read off the pieces of its path. No name is listed twice, and
the names listed are those that some piece carries behind the mark; the bare mark carries the empty
name. The rows stand in the order of the first places of their names, and a position is the last
place of the name. So positions are places of the path, and no two rows share one. Looking up a name
gives its last place, and nothing if no piece carries it. -/
theorem Route.parameters_by_places (route : Route H) :
    let pieces := Url.pieces route.path.text
    let names := route.parameters.map (·.name)
    names.Nodup ∧
    (∀ name, name ∈ names ↔ ":" ++ name ∈ pieces) ∧
    names.Pairwise (fun name other => pieces.idxOf (":" ++ name) < pieces.idxOf (":" ++ other)) ∧
    (∀ p ∈ route.parameters, IsGreatest {i | pieces[i]? = some (":" ++ p.name)} p.position ∧
      p.position < pieces.length) ∧
    (route.parameters.map (·.position)).Nodup ∧
    (∀ name position, route.positionOf? name = some position ↔
      IsGreatest {i | pieces[i]? = some (":" ++ name)} position) ∧
    (∀ name, route.positionOf? name = none ↔ ":" ++ name ∉ pieces) := by
  intro pieces names
  have hpieces : pieces = route.path.pieces := Url.pieces_frame route.path.isPathPiece
  have hposition : ∀ name position, route.positionOf? name = some position ↔
      IsGreatest {i | pieces[i]? = some (":" ++ name)} position := by
    intro name position
    rw [hpieces, ← Path.lastAt_iff_isGreatest]
    exact Path.positionOf?_eq_some_iff
  refine ⟨nodup_names_tableOf _, ?_, ?_, ?_, nodup_positions_tableOf _, hposition, ?_⟩
  · intro name
    rw [hpieces, ← Path.parameter_mem_segments_iff]
    exact mem_names_tableOf_iff
  · simp only [hpieces, ← Path.idxOf_segments]
    exact pairwise_first_tableOf _
  · intro p hp
    have hlast := mem_tableOf_iff.1 hp
    have hgreatest := Path.lastAt_iff_isGreatest.1 hlast
    rw [hpieces]
    exact ⟨hgreatest, (List.getElem?_eq_some_iff.1 hgreatest.1).1⟩
  · intro name
    rw [hpieces, ← Path.parameter_mem_segments_iff, ← mem_names_tableOf_iff]
    exact Path.positionOf?_eq_none_iff

/-- The rows follow the first places, so the positions need not ascend. -/
example : (Path.ofText "/:a/:/:b/:a").parameters = [⟨"a", 3⟩, ⟨"", 1⟩, ⟨"b", 2⟩] := by decide

end Routing
