import Mathlib
import Routing.Match

/-!
# The values of parameters

A parameter has the value of the piece at the last place where its name is written. Two ways lead
to this value: entering every place in turn, so that a later one replaces an earlier one, and
looking up the position that the table of parameters gives to the name. `LastAt` says what they
have in common.

* `LastAt` — the last place of a name among segments.
* `find?_tableOf` — the table of parameters gives every name its last place.
* `getElem?_ofPairs_along` — entering all places in turn leaves the value of the last.
* `ofPairs_table_eq` — both ways give the same params.
-/

namespace Routing

/-- The last of the segments that carries a name stands at a position. -/
def LastAt (segments : List Segment) (name : String) (position : Nat) : Prop :=
  segments[position]? = some (.parameter name) ∧
    ∀ later, position < later → segments[later]? ≠ some (.parameter name)

/-- The parameters of a list of segments. -/
def tableOf (segments : List Segment) : List Parameter :=
  segments.zipIdx.foldl Path.bindSegment []

theorem Path.parameters_eq_tableOf (path : Path) : path.parameters = tableOf path.segments := rfl

/-! ## The last place of a name -/

theorem lastAt_unique {segments : List Segment} {name : String} {p q : Nat}
    (hp : LastAt segments name p) (hq : LastAt segments name q) : p = q := by
  rcases Nat.lt_trichotomy p q with hlt | heq | hgt
  · exact absurd hq.1 (hp.2 q hlt)
  · exact heq
  · exact absurd hp.1 (hq.2 p hgt)

theorem not_lastAt_nil (name : String) (position : Nat) : ¬ LastAt [] name position := by
  intro h
  simpa using h.1

/-- One more segment is the last place of its own name and leaves the other names alone. -/
theorem lastAt_concat_iff {segments : List Segment} {s : Segment} {name : String}
    {position : Nat} :
    LastAt (segments ++ [s]) name position ↔
      if s = .parameter name then position = segments.length
      else LastAt segments name position := by
  by_cases hs : s = .parameter name
  · subst hs
    rw [if_pos rfl]
    constructor
    · rintro ⟨hat, hlater⟩
      have hle : position < segments.length + 1 := by
        simpa using (List.getElem?_eq_some_iff.1 hat).1
      by_contra hne
      exact hlater segments.length (by omega) (by simp)
    · rintro rfl
      refine ⟨by simp, ?_⟩
      intro later hlt
      rw [List.getElem?_eq_none (by simp; omega)]
      simp
  · rw [if_neg hs]
    -- the new segment is at no place of this name
    have hsame : ∀ i : Nat, (segments ++ [s])[i]? = some (Segment.parameter name) ↔
        segments[i]? = some (.parameter name) := by
      intro i
      rcases Nat.lt_trichotomy i segments.length with hlt | heq | hgt
      · rw [List.getElem?_append_left hlt]
      · subst heq
        simp [hs]
      · rw [List.getElem?_eq_none (by simp; omega), List.getElem?_eq_none (by omega)]
    unfold LastAt
    simp only [hsame, ne_eq]

/-- A name that is written somewhere has exactly one last place. -/
theorem existsUnique_lastAt {segments : List Segment} {name : String}
    (h : Segment.parameter name ∈ segments) : ∃! position, LastAt segments name position := by
  suffices hexists : ∃ position, LastAt segments name position by
    rcases hexists with ⟨position, hlast⟩
    exact ⟨position, hlast, fun _ hother => lastAt_unique hother hlast⟩
  induction segments using List.reverseRecOn with
  | nil => simp at h
  | append_singleton segments s ih =>
    by_cases hs : s = .parameter name
    · exact ⟨segments.length, lastAt_concat_iff.2 (by simp [hs])⟩
    · have hmem : Segment.parameter name ∈ segments := by
        rcases List.mem_append.1 h with h | h
        · exact h
        · exact absurd (List.mem_singleton.1 h).symm hs
      rcases ih hmem with ⟨position, hlast⟩
      exact ⟨position, lastAt_concat_iff.2 (by rwa [if_neg hs])⟩

/-! ## The table of parameters -/

theorem find?_bindParameter (name : String) (position : Nat) (table : List Parameter)
    (other : String) :
    (bindParameter name position table).find? (·.name = other) =
      if other = name then some ⟨name, position⟩ else table.find? (·.name = other) := by
  induction table with
  | nil =>
    by_cases hother : other = name
    · simp [bindParameter, hother]
    · simp [bindParameter, hother, Ne.symm hother]
  | cons p table ih =>
    by_cases hp : p.name = name
    · by_cases hother : other = name
      · simp [bindParameter, hp, hother]
      · simp [bindParameter, hp, hother, Ne.symm hother]
    · by_cases hpo : p.name = other
      · simp [bindParameter, hp, ← hpo]
      · simp [bindParameter, hp, hpo, ih]

/-- A name that is listed keeps its place in the list of names, a new one is put last. -/
theorem names_bindParameter (name : String) (position : Nat) (table : List Parameter) :
    (bindParameter name position table).map (·.name) =
      if name ∈ table.map (·.name) then table.map (·.name) else table.map (·.name) ++ [name] := by
  induction table with
  | nil => simp [bindParameter]
  | cons p table ih =>
    by_cases hp : p.name = name
    · simp [bindParameter, hp]
    · rw [bindParameter, if_neg hp, List.map_cons, ih, List.map_cons]
      by_cases hmem : name ∈ table.map (·.name)
      · rw [if_pos hmem, if_pos (List.mem_cons_of_mem _ hmem)]
      · rw [if_neg hmem, if_neg (List.not_mem_cons_of_ne_of_not_mem (Ne.symm hp) hmem),
          List.cons_append]

theorem nodup_names_bindParameter {name : String} {position : Nat} {table : List Parameter}
    (h : (table.map (·.name)).Nodup) :
    ((bindParameter name position table).map (·.name)).Nodup := by
  rw [names_bindParameter]
  by_cases hmem : name ∈ table.map (·.name)
  · rwa [if_pos hmem]
  · rw [if_neg hmem, ← List.concat_eq_append]
    exact h.concat hmem

theorem tableOf_concat (segments : List Segment) (s : Segment) :
    tableOf (segments ++ [s]) = Path.bindSegment (tableOf segments) (s, segments.length) := by
  simp [tableOf, List.zipIdx_append, List.foldl_append]

/-- No name is listed twice. -/
theorem nodup_names_tableOf (segments : List Segment) :
    ((tableOf segments).map (·.name)).Nodup := by
  induction segments using List.reverseRecOn with
  | nil => exact List.nodup_nil
  | append_singleton segments s ih =>
    rw [tableOf_concat]
    cases s with
    | literal text => exact ih
    | parameter name => exact nodup_names_bindParameter ih

/-- The table gives every name its last place. -/
theorem find?_tableOf {segments : List Segment} {name : String} {p : Parameter} :
    (tableOf segments).find? (·.name = name) = some p ↔
      p.name = name ∧ LastAt segments name p.position := by
  -- from the end of the segments, as the table is filled: the last one decides for its own name
  induction segments using List.reverseRecOn with
  | nil => simp [tableOf, not_lastAt_nil]
  | append_singleton segments s ih =>
    rw [tableOf_concat, lastAt_concat_iff]
    cases s with
    | literal text => simpa [Path.bindSegment] using ih
    | parameter own =>
      rw [Path.bindSegment, find?_bindParameter]
      by_cases hown : name = own
      · subst hown
        simp only [if_true, Option.some.injEq]
        constructor
        · rintro rfl
          exact ⟨rfl, rfl⟩
        · rintro ⟨rfl, hpos⟩
          rw [← hpos]
      · have hne : Segment.parameter own ≠ .parameter name := by
          simpa using Ne.symm hown
        rw [if_neg hown, if_neg hne]
        exact ih

/-- A name that comes twice is listed once, with its last place. -/
example : (Path.ofText "/:id/posts/:id").parameters = [⟨"id", 2⟩] := by decide

theorem mem_tableOf_iff {segments : List Segment} {p : Parameter} :
    p ∈ tableOf segments ↔ LastAt segments p.name p.position := by
  constructor
  · intro hmem
    have hsome : ((tableOf segments).find? (·.name = p.name)).isSome := by
      rw [List.find?_isSome]
      exact ⟨p, hmem, by simp⟩
    rcases Option.isSome_iff_exists.1 hsome with ⟨q, hq⟩
    rcases find?_tableOf.1 hq with ⟨hname, hlast⟩
    -- names are listed once, so the parameter that was found is this one
    have hpq : q = p :=
      List.inj_on_of_nodup_map (nodup_names_tableOf segments) (List.mem_of_find?_eq_some hq) hmem
        hname
    rwa [hpq] at hlast
  · intro hlast
    have hfind : (tableOf segments).find? (·.name = p.name) = some p :=
      find?_tableOf.2 ⟨rfl, hlast⟩
    exact List.mem_of_find?_eq_some hfind

theorem Path.positionOf?_eq_some_iff {path : Path} {name : String} {position : Nat} :
    path.positionOf? name = some position ↔ LastAt path.segments name position := by
  rw [positionOf?, parameters_eq_tableOf, Option.map_eq_some_iff]
  constructor
  · rintro ⟨p, hp, rfl⟩
    exact (find?_tableOf.1 hp).2
  · intro hlast
    exact ⟨⟨name, position⟩, find?_tableOf.2 ⟨rfl, hlast⟩, rfl⟩

/-! ## Params -/

namespace Params

theorem ofPairs_concat (pairs : List (String × String)) (name value : String) :
    ofPairs (pairs ++ [(name, value)]) = (ofPairs pairs).insert name value := by
  simp [ofPairs, List.foldl_append]

theorem getElem?_insert (params : Params) (name value other : String) :
    (params.insert name value)[other]? = if name = other then some value else params[other]? := by
  rw [Std.ExtTreeMap.getElem?_insert]
  simp only [compare_eq_iff_eq]

/-- When no name comes twice, the params are the pairs. -/
theorem getElem?_ofPairs_of_nodup {pairs : List (String × String)}
    (h : (pairs.map Prod.fst).Nodup) {name value : String} :
    (ofPairs pairs)[name]? = some value ↔ (name, value) ∈ pairs := by
  induction pairs using List.reverseRecOn with
  | nil => simp [ofPairs]
  | append_singleton pairs pair ih =>
    rw [List.map_append, List.nodup_append] at h
    rcases h with ⟨hpairs, -, hnew⟩
    rw [ofPairs_concat, getElem?_insert, List.mem_append, List.mem_singleton, ← ih hpairs]
    by_cases hname : pair.1 = name
    · -- no earlier pair has this name, so nothing is replaced
      have hold : ¬ (ofPairs pairs)[name]? = some value := by
        intro hvalue
        have hmem := List.mem_map_of_mem (f := Prod.fst) ((ih hpairs).1 hvalue)
        exact hnew name hmem pair.1 (by simp) hname.symm
      rw [if_pos hname]
      constructor
      · intro hvalue
        exact Or.inr (Prod.ext hname.symm (Option.some.inj hvalue).symm)
      · rintro (hvalue | heq)
        · exact absurd hvalue hold
        · rw [← heq]
    · have hne : (name, value) ≠ pair := by
        rintro rfl
        exact hname rfl
      simp [hname, hne]

end Params

/-- The parameters among some segments, each with the piece at its place. -/
def pairsAlong (segments : List Segment) (pieces : List String) : List (String × String) :=
  (segments.zip pieces).filterMap fun (s, piece) => s.name?.map (·, piece)

/-- Entering all places in turn leaves every name the piece at its last place. -/
theorem getElem?_ofPairs_along {segments : List Segment} {pieces : List String}
    (hlen : segments.length = pieces.length) {name value : String} :
    (Params.ofPairs (pairsAlong segments pieces))[name]? = some value ↔
      ∃ position, LastAt segments name position ∧ pieces[position]? = some value := by
  induction segments using List.reverseRecOn generalizing pieces with
  | nil => simp [pairsAlong, Params.ofPairs, not_lastAt_nil]
  | append_singleton segments s ih =>
    rcases List.eq_nil_or_concat' pieces with rfl | ⟨front, piece, rfl⟩
    · simp at hlen
    · have hfront : segments.length = front.length := by simpa using hlen
      have hpairs : pairsAlong (segments ++ [s]) (front ++ [piece]) =
          pairsAlong segments front ++ (s.name?.map (·, piece)).toList := by
        rw [pairsAlong, List.zip_append hfront, List.filterMap_append]
        cases s <;> rfl
      -- the last place of any other name lies among the earlier segments
      have hearlier : (∃ position, LastAt segments name position ∧
            (front ++ [piece])[position]? = some value) ↔
          ∃ position, LastAt segments name position ∧ front[position]? = some value := by
        apply exists_congr
        intro position
        apply and_congr_right
        intro hlast
        have hlt := (List.getElem?_eq_some_iff.1 hlast.1).1
        rw [List.getElem?_append_left (by omega)]
      simp only [hpairs, lastAt_concat_iff]
      cases s with
      | literal text =>
        simp only [Segment.name?, Option.map_none, Option.toList_none, List.append_nil,
          reduceCtorEq, if_false]
        rw [hearlier, ih hfront]
      | parameter own =>
        simp only [Segment.name?, Option.map_some, Option.toList_some]
        rw [Params.ofPairs_concat, Params.getElem?_insert]
        by_cases hown : own = name
        · simp [hown, hfront]
        · simp only [hown, if_false, Segment.parameter.injEq]
          rw [hearlier, ih hfront]

/-- Looking up the positions of the table gives the same params. -/
theorem ofPairs_table_eq {segments : List Segment} {pieces : List String}
    (hlen : segments.length = pieces.length) :
    Params.ofPairs ((tableOf segments).filterMap fun p =>
        pieces[p.position]?.map fun piece => (p.name, piece)) =
      Params.ofPairs (pairsAlong segments pieces) := by
  have hnodup : (((tableOf segments).filterMap fun p =>
      pieces[p.position]?.map fun piece => (p.name, piece)).map Prod.fst).Nodup := by
    have hnames := nodup_names_tableOf segments
    rw [List.Nodup, List.pairwise_map] at hnames ⊢
    -- a pair has the name of its parameter, so the names stay different
    refine hnames.filterMap _ ?_
    intro p q hpq pair hpair other hother
    rcases Option.map_eq_some_iff.1 hpair with ⟨piece, -, rfl⟩
    rcases Option.map_eq_some_iff.1 hother with ⟨piece', -, rfl⟩
    exact hpq
  apply Std.ExtTreeMap.ext_getElem?
  intro name
  apply Option.ext
  intro value
  rw [Params.getElem?_ofPairs_of_nodup hnodup, getElem?_ofPairs_along hlen, List.mem_filterMap]
  constructor
  · rintro ⟨p, hp, hpair⟩
    rcases Option.map_eq_some_iff.1 hpair with ⟨piece, hpiece, heq⟩
    cases heq
    exact ⟨p.position, mem_tableOf_iff.1 hp, hpiece⟩
  · rintro ⟨position, hlast, hvalue⟩
    exact ⟨⟨name, position⟩, mem_tableOf_iff.2 hlast, by simp [hvalue]⟩

end Routing
