import Routing.Proofs.Descent.Trail

/-!
# Which of the fitting routes answer

Any number of routes may fit a request segment by segment. Those that answer it all have one shape,
and against every other that fits they have a literal at the first place where the shapes differ. A
request can be refused although routes fit; then each of these was left at a parameter for a
literal of some other route.

* `Route.Fits` — a route fits a request segment by segment.
* `Backtracking.search` — a search that prefers literals and takes them back when they lead nowhere.
* `Router.answer_priority` — who answers, and why nobody does.
-/

namespace Routing

variable {H : Type}

/-- A route fits a request: its method has the token, it has a segment for every piece, and its
literal segments are the pieces at their places. -/
structure Route.Fits (route : Route H) (method : String) (pieces : List String) : Prop where
  method : route.method.token = method
  length : route.path.segments.length = pieces.length
  literals : ∀ (i : Nat) (text : String),
    route.path.segments[i]? = some (.literal text) → pieces[i]? = some text

/-! ## Shapes that fit -/

/-- Two lists that are not equal have a first place where they differ. -/
theorem exists_first_difference {α : Type} {as bs : List α} (h : as ≠ bs) :
    ∃ i, as.take i = bs.take i ∧ as[i]? ≠ bs[i]? := by
  induction as generalizing bs with
  | nil =>
    cases bs with
    | nil => exact absurd rfl h
    | cons b bs => exact ⟨0, rfl, by simp⟩
  | cons a as ih =>
    cases bs with
    | nil => exact ⟨0, rfl, by simp⟩
    | cons b bs =>
      by_cases hab : a = b
      · subst hab
        have htail : as ≠ bs := by
          intro heq
          exact h (by rw [heq])
        rcases ih htail with ⟨i, htake, hne⟩
        exact ⟨i + 1, by rw [List.take_succ_cons, List.take_succ_cons, htake], by simpa using hne⟩
      · exact ⟨0, rfl, by simpa using hab⟩

/-- At every piece a route that fits has the piece or a parameter. -/
theorem Route.Fits.shape_cases {route : Route H} {method : String} {pieces : List String}
    (h : route.Fits method pieces) {i : Nat} {piece : String} (hpiece : pieces[i]? = some piece) :
    route.path.shape[i]? = some (.literal piece) ∨ route.path.shape[i]? = some .wildcard := by
  have hi : i < route.path.segments.length := by
    rw [h.length]
    exact (List.getElem?_eq_some_iff.1 hpiece).1
  have hsegment := List.getElem?_eq_getElem hi
  cases hs : route.path.segments[i] with
  | literal text =>
    rw [hs] at hsegment
    have htext := h.literals i text hsegment
    obtain rfl : piece = text := Option.some.inj (hpiece.symm.trans htext)
    exact Or.inl (Path.getElem?_shape_eq_literal_iff.2 hsegment)
  | parameter name =>
    rw [hs] at hsegment
    exact Or.inr (Path.getElem?_shape_eq_wildcard_iff.2 ⟨name, hsegment⟩)

namespace Trail

variable {own : List (Route H)} {method : String} {pieces : List String} {edges : List Edge}

/-- The routes that end where a trail ends fit. -/
theorem fits (h : Trail own pieces edges) {r : Route H} (hmethod : r.method.token = method)
    (hshape : r.path.shape = edges) : r.Fits method pieces := by
  have hlen : r.path.segments.length = pieces.length := by
    rw [← Path.length_shape, hshape, h.length]
  refine ⟨hmethod, hlen, ?_⟩
  intro i text htext
  have hi : i < pieces.length := by
    rw [← hlen]
    exact (List.getElem?_eq_some_iff.1 htext).1
  have hpiece := List.getElem?_eq_getElem hi
  have hedge := Path.getElem?_shape_eq_literal_iff.2 htext
  rw [hshape] at hedge
  rcases h.prefers i _ hpiece with hliteral | ⟨hwildcard, -⟩
  · rw [hliteral] at hedge
    cases hedge
    exact hpiece
  · rw [hwildcard] at hedge
    cases hedge

/-- Against every other route that fits, a trail goes through a literal at the first difference. -/
theorem literal_at_difference (h : Trail own pieces edges) {t : Route H} (ht : t ∈ own)
    (hfits : t.Fits method pieces) (hne : t.path.shape ≠ edges) :
    ∃ i text, t.path.shape.take i = edges.take i ∧ edges[i]? = some (.literal text) ∧
      t.path.shape[i]? = some .wildcard := by
  rcases exists_first_difference hne with ⟨i, htake, hdiffer⟩
  have hi : i < pieces.length := by
    by_contra hle
    apply hdiffer
    rw [List.getElem?_eq_none (by rw [Path.length_shape, hfits.length]; omega),
      List.getElem?_eq_none (by rw [h.length]; omega)]
  have hpiece := List.getElem?_eq_getElem hi
  refine ⟨i, pieces[i], htake, ?_⟩
  rcases h.prefers i _ hpiece with hliteral | ⟨hwildcard, hnone⟩
  · refine ⟨hliteral, ?_⟩
    rcases hfits.shape_cases hpiece with hsame | hparameter
    · exact absurd (hsame.trans hliteral.symm) hdiffer
    · exact hparameter
  · -- a literal of `t` would have kept the trail from going through the wildcard
    rcases hfits.shape_cases hpiece with hown | hparameter
    · have hbegins := (Path.take_concat_literal_isPrefix_shape_iff (by rw [h.length]; omega)).2
        ⟨htake, Path.getElem?_shape_eq_literal_iff.1 hown⟩
      exact absurd ⟨t, ht, hbegins⟩ hnone
    · exact absurd (hparameter.trans hwildcard.symm) hdiffer

/-- The shape of a route that fits is a trail, unless a literal goes before one of its parameters. -/
theorem of_fits {t : Route H} (ht : t ∈ own) (hfits : t.Fits method pieces)
    (hfree : ∀ i piece, pieces[i]? = some piece → t.path.shape[i]? = some .wildcard →
      ¬ Passed own (t.path.shape.take i ++ [.literal piece])) :
    Trail own pieces t.path.shape := by
  constructor
  · rw [Path.length_shape, hfits.length]
  · exact Or.inr ⟨t, ht, List.prefix_refl _⟩
  · intro i piece hpiece
    rcases hfits.shape_cases hpiece with hliteral | hparameter
    · exact Or.inl hliteral
    · exact Or.inr ⟨hparameter, hfree i piece hpiece hparameter⟩

end Trail

/-! ## Taking literals back -/

namespace Backtracking

/-- Search among candidates for the pieces of a URL from an index on. Those with the literal are
tried first; when none of them comes to an end, those with a parameter are tried. -/
def search (candidates : List (Route H)) (index : Nat) : List String → List (Route H)
  | [] => candidates.filter (·.path.segments.length = index)
  | piece :: pieces =>
    let found := search
      (candidates.filter fun r => r.path.segments[index]? = some (.literal piece))
      (index + 1) pieces
    if found = [] then
      search (candidates.filter fun r => (r.path.segments[index]?.bind Segment.name?).isSome)
        (index + 1) pieces
    else found

theorem search_nil (index : Nat) (pieces : List String) :
    search ([] : List (Route H)) index pieces = [] := by
  induction pieces generalizing index with
  | nil => rfl
  | cons piece pieces ih => simp [search, ih]

/-- Where narrowing without a way back finds routes, a way back is not needed. -/
theorem search_eq_narrowAll (candidates : List (Route H)) (index : Nat) (pieces : List String)
    (h : (Narrowing.narrowAll candidates index pieces).filter
      (·.path.segments.length = index + pieces.length) ≠ []) :
    search candidates index pieces =
      (Narrowing.narrowAll candidates index pieces).filter
        (·.path.segments.length = index + pieces.length) := by
  induction pieces generalizing candidates index with
  | nil => rfl
  | cons piece pieces ih =>
    have hlen : index + (piece :: pieces).length = index + 1 + pieces.length := by
      rw [List.length_cons]
      omega
    simp only [hlen, Narrowing.narrowAll, Narrowing.narrow] at h ⊢
    rw [search]
    by_cases hexact : (candidates.filter fun r =>
        r.path.segments[index]? = some (.literal piece)) = []
    · simp only [hexact, search_nil, if_true] at h ⊢
      split at h
      · exact absurd rfl h
      · rename_i hsome
        rw [if_neg hsome]
        exact ih _ _ h
    · simp only [hexact, if_false] at h ⊢
      rw [ih _ _ h, if_neg h]

end Backtracking

/-! ## Who answers -/

namespace Narrowing

/-- Survivors are found by a search with a way back, too. -/
theorem survivors_eq_search {routes : List (Route H)} {method url : String}
    (h : survivors routes method url ≠ []) :
    survivors routes method url =
      Backtracking.search (routesFor method routes) 0 (Url.pieces url) := by
  have hsearch := Backtracking.search_eq_narrowAll (routesFor method routes) 0 (Url.pieces url)
  rw [Nat.zero_add] at hsearch
  exact (hsearch h).symm

/-- Where nothing survives, a route that fits was left for a literal of another route. -/
theorem exists_literal_of_fits {routes : List (Route H)} {method url : String}
    (hnone : survivors routes method url = []) {t : Route H} (ht : t ∈ routesFor method routes)
    (hfits : t.Fits method (Url.pieces url)) :
    ∃ i piece name, (Url.pieces url)[i]? = some piece ∧
      t.path.segments[i]? = some (.parameter name) ∧
      ∃ s ∈ routesFor method routes, s.path.shape.take i = t.path.shape.take i ∧
        s.path.segments[i]? = some (.literal piece) := by
  by_contra hfree
  -- nothing goes before a parameter of `t`, so its shape is the trail, and `t` survives
  have htrail : Trail (routesFor method routes) (Url.pieces url) t.path.shape := by
    refine Trail.of_fits ht hfits ?_
    intro i piece hpiece hwildcard hpassed
    rcases Path.getElem?_shape_eq_wildcard_iff.1 hwildcard with ⟨name, hname⟩
    rcases hpassed with ⟨s, hs, hbegins⟩
    have hi : i ≤ t.path.shape.length := Nat.le_of_lt (List.getElem?_eq_some_iff.1 hwildcard).1
    rcases (Path.take_concat_literal_isPrefix_shape_iff hi).1 hbegins with ⟨htake, hliteral⟩
    exact hfree ⟨i, piece, name, hpiece, hname, s, hs, htake, hliteral⟩
  have hmem : t ∈ survivors routes method url := by
    rw [survivors_of_trail htrail]
    exact mem_endingAt_iff.2 ⟨ht, rfl⟩
  rw [hnone] at hmem
  cases hmem

end Narrowing

/-- In every state of a router, a request is answered in one of two ways. Either there are matches:
their routes fit and have one shape, they are those that a search with a way back finds, and any
other route that fits has a parameter where this shape has a literal, at the first place where the
two differ. Or the request is refused: then every route that fits has a parameter where some route
of the method, with the same shape up to there, has the piece of the URL as a literal. -/
theorem Router.answer_priority (operations : List (Operation H)) (method url : String) :
    (∃ found shape, ((after operations).answer method url).value.1 = .ok found ∧ found ≠ [] ∧
      (∀ m ∈ found, m.route ∈ (after operations).routes ∧
        m.route.Fits method (Url.pieces url) ∧ m.route.path.shape = shape) ∧
      (∀ t ∈ (after operations).routes, t.Fits method (Url.pieces url) →
        t ∈ found.map (·.route) ∨
        ∃ i text, t.path.shape.take i = shape.take i ∧ shape[i]? = some (.literal text) ∧
          t.path.shape[i]? = some .wildcard) ∧
      found.map (·.route) =
        Backtracking.search (routesFor method (after operations).routes) 0 (Url.pieces url)) ∨
    (((after operations).answer method url).value.1 = .error (.routeNotFound method url) ∧
      ∀ t ∈ (after operations).routes, t.Fits method (Url.pieces url) →
        ∃ i piece name, (Url.pieces url)[i]? = some piece ∧
          t.path.segments[i]? = some (.parameter name) ∧
          ∃ s ∈ (after operations).routes, s.method = t.method ∧
            s.path.shape.take i = t.path.shape.take i ∧
            s.path.segments[i]? = some (.literal piece)) := by
  have hanswer := answer_eq (coherent_after operations) method url
  by_cases hnone : Narrowing.survivors (after operations).routes method url = []
  · right
    rw [if_pos hnone] at hanswer
    refine ⟨hanswer, ?_⟩
    intro t ht hfits
    have hown := mem_routesFor_iff.2 ⟨ht, hfits.method⟩
    rcases Narrowing.exists_literal_of_fits hnone hown hfits with
      ⟨i, piece, name, hpiece, hname, s, hs, htake, hliteral⟩
    rcases mem_routesFor_iff.1 hs with ⟨hs, htoken⟩
    have hmethod : s.method = t.method := Method.token_injective (htoken.trans hfits.method.symm)
    exact ⟨i, piece, name, hpiece, hname, s, hs, hmethod, htake, hliteral⟩
  · left
    rw [if_neg hnone] at hanswer
    rcases Narrowing.survivors_cases (after operations).routes method url with
      ⟨edges, htrail, hsurvivors⟩ | ⟨-, hsurvivors⟩
    · refine ⟨_, edges, hanswer, by simpa using hnone, ?_, ?_, ?_⟩
      · intro m hm
        rcases List.mem_map.1 hm with ⟨r, hr, rfl⟩
        rw [hsurvivors] at hr
        rcases mem_endingAt_iff.1 hr with ⟨hown, hshape⟩
        rcases mem_routesFor_iff.1 hown with ⟨hmem, htoken⟩
        exact ⟨hmem, htrail.fits htoken hshape, hshape⟩
      · intro t ht hfits
        have hown := mem_routesFor_iff.2 ⟨ht, hfits.method⟩
        rw [map_route_matchAlong, hsurvivors, mem_endingAt_iff]
        by_cases hshape : t.path.shape = edges
        · exact Or.inl ⟨hown, hshape⟩
        · exact Or.inr (htrail.literal_at_difference hown hfits hshape)
      · rw [map_route_matchAlong]
        exact Narrowing.survivors_eq_search hnone
    · exact absurd hsurvivors hnone

end Routing
