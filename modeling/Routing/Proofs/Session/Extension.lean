import Routing.Proofs.Descent.Trail

/-!
# One more route

What the registration of a route changes in the answer to a request of its method. The trees before
and after differ along the shape of the new route only, so a request goes its old way, unless it
comes to a node where the new route has brought a literal that is preferred to the wildcard taken
so far.

* `Router.Diverted` — the place where a request leaves its old way.
* `Router.AnswerChange` — what can happen to an answer.
* `Router.answer_register` — nothing else happens.
-/

namespace Routing

variable {H : Type}

/-! ## Trails before and after -/

/-- Some pieces that went through a wildcard at a position are led through a new literal of a route
there: up to this position they follow the shape of the route. -/
structure Diverts (own : List (Route H)) (r : Route H) (pieces : List String) (i : Nat) : Prop where
  literal : ∃ piece, pieces[i]? = some piece ∧ r.path.segments[i]? = some (.literal piece)
  trail : ∃ edges, Trail own pieces edges ∧ edges.take i = r.path.shape.take i ∧
    edges[i]? = some .wildcard
  fresh : ¬ Passed own (r.path.shape.take (i + 1))

theorem Path.take_succ_shape {path : Path} {i : Nat} {text : String}
    (h : path.segments[i]? = some (.literal text)) :
    path.shape.take (i + 1) = path.shape.take i ++ [.literal text] := by
  rw [List.take_add_one, getElem?_shape_eq_literal_iff.2 h]
  rfl

namespace Trail

variable {own : List (Route H)} {r : Route H} {pieces : List String} {edges : List Edge}

/-- A new route leaves a trail as it is, or it diverts the pieces. -/
theorem concat_or_diverts (h : Trail own pieces edges) (r : Route H) :
    Trail (own ++ [r]) pieces edges ∨ ∃ i, Diverts own r pieces i := by
  by_cases hdivert : ∃ i piece, pieces[i]? = some piece ∧ edges[i]? = some .wildcard ∧
      edges.take i ++ [.literal piece] <+: r.path.shape
  · right
    rcases hdivert with ⟨i, piece, hpiece, hwildcard, hbegins⟩
    have hi : i ≤ edges.length := Nat.le_of_lt (List.getElem?_eq_some_iff.1 hwildcard).1
    -- up to this position the pieces go along the shape of the new route
    rcases (Path.take_concat_literal_isPrefix_shape_iff hi).1 hbegins with ⟨htake, hs⟩
    refine ⟨i, ⟨piece, hpiece, hs⟩, ⟨edges, h, htake.symm, hwildcard⟩, ?_⟩
    rw [Path.take_succ_shape hs, htake]
    rcases h.prefers i piece hpiece with hliteral | ⟨-, hnone⟩
    · rw [hwildcard] at hliteral
      cases hliteral
    · exact hnone
  · left
    constructor
    · exact h.length
    · rcases h.passed with hnil | hpassed
      · exact Or.inl hnil
      · exact Or.inr (passed_concat_iff.2 (Or.inl hpassed))
    · intro i piece hpiece
      rcases h.prefers i piece hpiece with hliteral | ⟨hwildcard, hnone⟩
      · exact Or.inl hliteral
      · refine Or.inr ⟨hwildcard, ?_⟩
        rw [passed_concat_iff, not_or]
        refine ⟨hnone, ?_⟩
        intro hbegins
        exact hdivert ⟨i, piece, hpiece, hwildcard, hbegins⟩

/-- A trail after the registration is one from before, or only the new route passes its end. -/
theorem of_concat (h : Trail (own ++ [r]) pieces edges) :
    Trail own pieces edges ∨ ¬ Passed own edges := by
  by_cases hpassed : edges = [] ∨ Passed own edges
  · left
    constructor
    · exact h.length
    · exact hpassed
    · intro i piece hpiece
      rcases h.prefers i piece hpiece with hliteral | ⟨hwildcard, hnone⟩
      · exact Or.inl hliteral
      · refine Or.inr ⟨hwildcard, ?_⟩
        intro hold
        exact hnone (passed_concat_iff.2 (Or.inl hold))
  · right
    intro hold
    exact hpassed (Or.inr hold)

end Trail

theorem endingAt_concat (own : List (Route H)) (r : Route H) (edges : List Edge) :
    endingAt (own ++ [r]) edges =
      endingAt own edges ++ if r.path.shape = edges then [r] else [] := by
  rw [endingAt, endingAt, List.filter_append]
  by_cases hshape : r.path.shape = edges <;> simp [hshape]

theorem endingAt_eq_nil_of_not_passed {own : List (Route H)} {edges : List Edge}
    (h : ¬ Passed own edges) : endingAt own edges = [] := by
  rw [List.eq_nil_iff_forall_not_mem]
  intro r hr
  rcases mem_endingAt_iff.1 hr with ⟨hown, rfl⟩
  exact h ⟨r, hown, List.prefix_refl _⟩

theorem routesFor_concat (routes : List (Route H)) (r : Route H) :
    routesFor r.method.token (routes ++ [r]) = routesFor r.method.token routes ++ [r] := by
  simp [routesFor]

namespace Narrowing

/-- A request that comes to an end where only the new route passes had no survivors, or it is
diverted. -/
theorem survivors_eq_nil_or_diverts {routes : List (Route H)} {r : Route H} {method url : String}
    {edges : List Edge} (htrail : Trail (routesFor method routes ++ [r]) (Url.pieces url) edges)
    (hfresh : ¬ Passed (routesFor method routes) edges) :
    survivors routes method url = [] ∨
      ∃ i, Diverts (routesFor method routes) r (Url.pieces url) i := by
  rcases survivors_cases routes method url with ⟨edges', htrail', hends⟩ | ⟨-, hnone⟩
  · rcases htrail'.concat_or_diverts r with hkept | hdiverts
    · -- the old trail is the new one, and no old route passes its end
      obtain rfl := hkept.unique htrail
      rw [hends]
      exact Or.inl (endingAt_eq_nil_of_not_passed hfresh)
    · exact Or.inr hdiverts
  · exact Or.inl hnone

/-- A new route leaves the survivors of a request, or survives behind them, or it diverts the
request and survives alone or not at all. -/
theorem survivors_concat (routes : List (Route H)) (r : Route H) (url : String) :
    survivors (routes ++ [r]) r.method.token url = survivors routes r.method.token url ∨
    survivors (routes ++ [r]) r.method.token url = survivors routes r.method.token url ++ [r] ∨
    (∃ i, Diverts (routesFor r.method.token routes) r (Url.pieces url) i) ∧
      (survivors (routes ++ [r]) r.method.token url = [r] ∨
        survivors (routes ++ [r]) r.method.token url = []) := by
  have hafter := survivors_cases (routes ++ [r]) r.method.token url
  rw [routesFor_concat] at hafter
  rcases hafter with ⟨edges, htrail, hnew⟩ | ⟨hno, hnew⟩
  · rw [hnew, endingAt_concat]
    have hlast : (if r.path.shape = edges then [r] else []) = [r] ∨
        (if r.path.shape = edges then [r] else []) = [] := by
      split
      · exact Or.inl rfl
      · exact Or.inr rfl
    rcases htrail.of_concat with hsame | hfresh
    · -- the request goes its old way, and the new route may end there too
      rw [survivors_of_trail hsame]
      rcases hlast with hlast | hlast
      · exact Or.inr (Or.inl (by rw [hlast]))
      · exact Or.inl (by rw [hlast, List.append_nil])
    · rw [endingAt_eq_nil_of_not_passed hfresh, List.nil_append]
      rcases survivors_eq_nil_or_diverts htrail hfresh with hold | hdiverts
      · rw [hold, List.nil_append]
        rcases hlast with hlast | hlast
        · exact Or.inr (Or.inl hlast)
        · exact Or.inl hlast
      · exact Or.inr (Or.inr ⟨hdiverts, hlast⟩)
  · rw [hnew]
    rcases survivors_cases routes r.method.token url with ⟨edges', htrail', -⟩ | ⟨-, hold⟩
    · rcases htrail'.concat_or_diverts r with hkept | hdiverts
      · exact absurd hkept (hno edges')
      · exact Or.inr (Or.inr ⟨hdiverts, Or.inr rfl⟩)
    · exact Or.inl hold.symm

end Narrowing

/-! ## Answers before and after -/

/-- The matches of an answer; none when it is an error. -/
def Answer.found : Answer H → List (Match H)
  | .ok ms => ms
  | .error _ => []

/-- A match of a route for a request: each name of the route has its piece of the URL. -/
structure Match.IsOf (m : Match H) (route : Route H) (url : String) : Prop where
  of_route : m.route = route
  binds : Binds m.params route.path (Url.pieces url)

namespace Router

/-- Where a request leaves its old way because of a new route. The old descent follows the shape of
the route up to a position and takes the wildcard branch there; the route has a literal at this
position, which is the piece of the URL, and no route of the method had it there before. -/
structure Diverted (router : Router H) (route : Route H) (url : String) (i : Nat) : Prop where
  literal : ∃ piece, (Url.pieces url)[i]? = some piece ∧
    route.path.segments[i]? = some (.literal piece)
  descent : ∃ edges last,
    (Forest.ofRoutes router.routes).Descends route.method.token (Url.pieces url) edges last ∧
      edges.take i = route.path.shape.take i ∧ edges[i]? = some .wildcard
  fresh : ∀ r ∈ router.routes, r.method = route.method →
    ¬ route.path.shape.take (i + 1) <+: r.path.shape

/-- What the registration of a route can change in the answer to a request of its method. -/
inductive AnswerChange (router : Router H) (route : Route H) (url : String) (before : Answer H) :
    Answer H → Prop
  /-- Nothing. -/
  | unchanged : AnswerChange router route url before before
  /-- The new route matches too, behind all others. -/
  | appended (m : Match H) (hm : m.IsOf route url) :
      AnswerChange router route url before (.ok (before.found ++ [m]))
  /-- The request is diverted, and the new route alone matches. -/
  | replaced (i : Nat) (h : Diverted router route url i) (m : Match H) (hm : m.IsOf route url) :
      AnswerChange router route url before (.ok [m])
  /-- The request is diverted, and nothing matches. -/
  | lost (i : Nat) (h : Diverted router route url i) :
      AnswerChange router route url before (.error (.routeNotFound route.method.token url))

theorem diverted_of_diverts {router : Router H} {route : Route H} {url : String} {i : Nat}
    (h : Diverts (routesFor route.method.token router.routes) route (Url.pieces url) i) :
    Diverted router route url i := by
  rcases h with ⟨hliteral, ⟨edges, htrail, htake, hwildcard⟩, hfresh⟩
  refine ⟨hliteral, ?_, ?_⟩
  · have hown : routesFor route.method.token router.routes ≠ [] := by
      -- the wildcard on the way is that of a route
      rcases htrail.passed with hnil | ⟨r, hr, -⟩
      · rw [hnil] at hwildcard
        cases hwildcard
      · exact List.ne_nil_of_mem hr
    rcases Forest.descends_ofRoutes_iff.2 ⟨hown, htrail⟩ with ⟨last, hlast⟩
    exact ⟨edges, last, hlast, htake, hwildcard⟩
  · intro r hr hmethod hbegins
    exact hfresh ⟨r, mem_routesFor_iff.2 ⟨hr, by rw [hmethod]⟩, hbegins⟩

theorem isOf_of_mem_survivors {routes : List (Route H)} {method url : String} {r : Route H}
    (h : r ∈ Narrowing.survivors routes method url) :
    (matchAlong (Url.pieces url) r).IsOf r url :=
  ⟨rfl, binds_pairsAlong (Narrowing.length_of_mem_survivors h)⟩

theorem found_answer {router : Router H} (h : router.Coherent) (method url : String) :
    (router.answer method url).value.1.found =
      (Narrowing.survivors router.routes method url).map (matchAlong (Url.pieces url)) := by
  rw [answer_eq h]
  by_cases hnone : Narrowing.survivors router.routes method url = []
  · simp [hnone, Answer.ofMatches, Answer.found]
  · rw [if_neg hnone]
    rfl

/-- The answers of two routers of which one has one more route. -/
theorem answerChange_of_concat {old new : Router H} (hold : old.Coherent) (hnew : new.Coherent)
    {route : Route H} (hroutes : new.routes = old.routes ++ [route]) (url : String) :
    AnswerChange old route url (old.answer route.method.token url).value.1
      (new.answer route.method.token url).value.1 := by
  have hafter := answer_eq hnew route.method.token url
  rw [hroutes] at hafter
  rcases Narrowing.survivors_concat old.routes route url with hsame | happended | ⟨hdiverts, hrest⟩
  · rw [hafter, hsame, ← answer_eq hold]
    exact .unchanged
  · have hmem : route ∈
        Narrowing.survivors (old.routes ++ [route]) route.method.token url := by
      rw [happended]
      exact List.mem_append_right _ List.mem_cons_self
    rw [hafter, if_neg (List.ne_nil_of_mem hmem), happended, List.map_append,
      ← found_answer hold]
    exact .appended _ (isOf_of_mem_survivors hmem)
  · rcases hdiverts with ⟨i, hi⟩
    have hdiverted := diverted_of_diverts hi
    rw [hafter]
    rcases hrest with halone | hnone
    · have hmem : route ∈
          Narrowing.survivors (old.routes ++ [route]) route.method.token url := by
        rw [halone]
        exact List.mem_cons_self
      rw [if_neg (List.ne_nil_of_mem hmem), halone]
      exact .replaced i hdiverted _ (isOf_of_mem_survivors hmem)
    · rw [if_pos hnone]
      exact .lost i hdiverted

/-- A registration puts the route behind the others and drops what was derived from them. -/
theorem routes_of_register {router : Router H} {d : Definition H} {route : Route H}
    (h : (router.register d).value.1 = .ok route) :
    (router.register d).value.2.routes = router.routes ++ [route] ∧
      (router.register d).value.2.Coherent := by
  cases hmethod : Method.parse d.method with
  | error cause =>
    rw [router.register_of_parse_eq_error hmethod] at h
    cases h
  | ok method =>
    rw [router.register_of_parse_eq_ok hmethod] at h ⊢
    obtain rfl : router.registry.nextRoute method (Path.ofText d.path) d.handler = route :=
      Except.ok.inj h
    exact ⟨rfl, coherent_ofRegistry _⟩

/-- In every state of a router, the registration of a route changes the answer to a request of its
method in one of four ways: not at all, by one more match behind the others, or, where a new literal
of the route diverts the request from a wildcard, to the new route alone or to an error. -/
theorem answer_register (operations : List (Operation H)) (d : Definition H) {route : Route H}
    (hregister : ((after operations).register d).value.1 = .ok route) (url : String) :
    AnswerChange (after operations) route url
      ((after operations).answer route.method.token url).value.1
      (((after operations).register d).value.2.answer route.method.token url).value.1 := by
  rcases routes_of_register hregister with ⟨hroutes, hcoherent⟩
  exact answerChange_of_concat (coherent_after operations) hcoherent hroutes url

/-- A literal diverts a request that a parameter answered so far. -/
theorem answer_register_literal :
    let operations : List (Operation Nat) := [.register ⟨"GET", "/posts/:id", 0⟩]
    let d : Definition Nat := ⟨"get", "/posts/new/draft", 1⟩
    let route : Route Nat := ⟨1, .get, Path.ofText "/posts/new/draft", 1⟩
    ((after operations).register d).value.1 = .ok route ∧
      ((after operations).answer "GET" "/posts/new").value.1.found.length = 1 ∧
      (((after operations).register d).value.2.answer "GET" "/posts/new").value.1 =
        .error (.routeNotFound "GET" "/posts/new") ∧
      AnswerChange (after operations) route "/posts/new"
        ((after operations).answer "GET" "/posts/new").value.1
        (((after operations).register d).value.2.answer "GET" "/posts/new").value.1 :=
  ⟨rfl, rfl, rfl, answer_register _ _ rfl _⟩

end Router

end Routing
