import Routing.Proofs.Descent.Trail
import Routing.Proofs.Plan.Agreement

/-!
# Corresponding routes

Two lists of routes that pass the same edges lead a request the same way. So what holds of the
routes that end there holds of the survivors, and what holds of the survivors' matches holds of the
answers. The routes of two routers correspond when they are related one after the other and related
routes have the same shape: then, whatever else the routes say, requests are answered by
corresponding matches.

* `Narrowing.survivors_related` — survivors are related as the routes are that end at one place.
* `Router.answer_related` — answers are related as the matches of the survivors are.
* `Answer.Corresponds` — two answers are both an error, or their matches are related.
* `Router.answers_corresponding` — routers with corresponding routes give such answers.
-/

namespace Routing

variable {H K : Type}

/-! ## Routes that pass the same edges -/

/-- Where the routes of a method pass the same edges, the survivors of a request of this method are
related as the routes are that end behind the same edges. -/
theorem Narrowing.survivors_related {routes : List (Route H)} {others : List (Route K)}
    (L : List (Route H) → List (Route K) → Prop) (hnil : L [] []) {method : String}
    (hpassed : ∀ front,
      Passed (routesFor method routes) front ↔ Passed (routesFor method others) front)
    (hends : ∀ edges,
      L (endingAt (routesFor method routes) edges) (endingAt (routesFor method others) edges))
    (url : String) : L (survivors routes method url) (survivors others method url) := by
  rcases survivors_cases routes method url with ⟨edges, htrail, hrest⟩ | ⟨hno, hrest⟩
  · rw [hrest, survivors_of_trail (htrail.of_passed_iff hpassed)]
    exact hends edges
  · have hno' : ∀ edges, ¬ Trail (Routing.routesFor method others) (Url.pieces url) edges := by
      intro edges htrail
      exact hno edges (htrail.of_passed_iff fun front => (hpassed front).symm)
    rw [hrest, survivors_eq_nil_of_no_trail hno']
    exact hnil

/-- The answers of two coherent routers with equally many survivors are related as the errors are
that name the request, and as the matches of the survivors are. -/
theorem Router.answer_related (A : Answer H → Answer K → Prop) {router : Router H}
    {other : Router K} (hrouter : router.Coherent) (hother : other.Coherent) {method url : String}
    (hlen : (Narrowing.survivors router.routes method url).length =
      (Narrowing.survivors other.routes method url).length)
    (herror : A (.error (.routeNotFound method url)) (.error (.routeNotFound method url)))
    (hfound : A
      (.ok ((Narrowing.survivors router.routes method url).map (matchAlong (Url.pieces url))))
      (.ok ((Narrowing.survivors other.routes method url).map (matchAlong (Url.pieces url))))) :
    A (router.answer method url).value.1 (other.answer method url).value.1 := by
  have hnil : Narrowing.survivors router.routes method url = [] ↔
      Narrowing.survivors other.routes method url = [] := by
    rw [← List.length_eq_zero_iff, ← List.length_eq_zero_iff, hlen]
  rw [answer_eq hrouter, answer_eq hother]
  by_cases hnone : Narrowing.survivors router.routes method url = []
  · rw [if_pos hnone, if_pos (hnil.1 hnone)]
    exact herror
  · rw [if_neg hnone, if_neg (hnil.not.1 hnone)]
    exact hfound

/-! ## Corresponding routes go the same way -/

section

variable {R : Route H → Route K → Prop} {routes : List (Route H)} {others : List (Route K)}

theorem shapes_of_corresponding (hshape : ∀ r s, R r s → r.path.shape = s.path.shape)
    (h : List.Forall₂ R routes others) :
    routes.map (·.path.shape) = others.map (·.path.shape) := by
  rw [← List.forall₂_eq_eq_eq, List.forall₂_map_left_iff, List.forall₂_map_right_iff]
  exact h.imp hshape

theorem passed_iff_mem_shapes {routes : List (Route H)} {edges : List Edge} :
    Passed routes edges ↔ ∃ shape ∈ routes.map (·.path.shape), edges <+: shape := by
  simp [Passed]

theorem passed_iff_of_corresponding (hshape : ∀ r s, R r s → r.path.shape = s.path.shape)
    (h : List.Forall₂ R routes others) (edges : List Edge) :
    Passed routes edges ↔ Passed others edges := by
  rw [passed_iff_mem_shapes, passed_iff_mem_shapes, shapes_of_corresponding hshape h]

/-- Of corresponding routes those that end behind the same edges correspond. -/
theorem endingAt_corresponding (hshape : ∀ r s, R r s → r.path.shape = s.path.shape)
    (h : List.Forall₂ R routes others) (edges : List Edge) :
    List.Forall₂ R (endingAt routes edges) (endingAt others edges) := by
  refine List.rel_filter ?_ h
  intro r s hrs
  simp [hshape r s hrs]

/-- Where the routes of a method correspond, the survivors of a request of this method do. -/
theorem Narrowing.survivors_corresponding (hshape : ∀ r s, R r s → r.path.shape = s.path.shape)
    {method : String} (h : List.Forall₂ R (routesFor method routes) (routesFor method others))
    (url : String) :
    List.Forall₂ R (survivors routes method url) (survivors others method url) :=
  survivors_related (List.Forall₂ R) .nil (passed_iff_of_corresponding hshape h)
    (endingAt_corresponding hshape h) url

end

/-! ## Corresponding answers -/

/-- Two answers to a request correspond: both name the request, for which nothing was found, or
their matches are related one after the other. -/
inductive Answer.Corresponds (rel : Match H → Match K → Prop) (method url : String) :
    Answer H → Answer K → Prop
  | notFound : Corresponds rel method url (.error (.routeNotFound method url))
      (.error (.routeNotFound method url))
  | found (ms : List (Match H)) (ms' : List (Match K)) (related : List.Forall₂ rel ms ms') :
      Corresponds rel method url (.ok ms) (.ok ms')

namespace Router

variable {R : Route H → Route K → Prop} {router : Router H} {other : Router K}
  {method url : String}

/-- Coherent routers whose routes of a method correspond answer a request of this method by
corresponding matches, by descent and by plan. -/
theorem answers_corresponding (rel : Match H → Match K → Prop) (hrouter : router.Coherent)
    (hother : other.Coherent) (hshape : ∀ r s, R r s → r.path.shape = s.path.shape)
    (hrel : ∀ r s, r.path.segments.length = (Url.pieces url).length → R r s →
      rel (matchAlong (Url.pieces url) r) (matchAlong (Url.pieces url) s))
    (h : List.Forall₂ R (routesFor method router.routes) (routesFor method other.routes)) :
    Answer.Corresponds rel method url (router.answer method url).value.1
        (other.answer method url).value.1 ∧
      Answer.Corresponds rel method url (router.answerByPlan method url).value.1
        (other.answerByPlan method url).value.1 := by
  have hsurvivors := Narrowing.survivors_corresponding hshape h url
  have hmatches : List.Forall₂ rel
      ((Narrowing.survivors router.routes method url).map (matchAlong (Url.pieces url)))
      ((Narrowing.survivors other.routes method url).map (matchAlong (Url.pieces url))) := by
    rw [List.forall₂_map_left_iff, List.forall₂_map_right_iff]
    have hlen : ∀ r ∈ Narrowing.survivors router.routes method url,
        r.path.segments.length = (Url.pieces url).length := by
      intro r hr
      exact Narrowing.length_of_mem_survivors hr
    have hboth := (List.forall₂_and_left _ _).2 ⟨hlen, hsurvivors⟩
    exact hboth.imp fun r s hrs => hrel r s hrs.1 hrs.2
  have hdescent : Answer.Corresponds rel method url (router.answer method url).value.1
      (other.answer method url).value.1 :=
    answer_related (Answer.Corresponds rel method url) hrouter hother hsurvivors.length_eq .notFound
      (.found _ _ hmatches)
  refine ⟨hdescent, ?_⟩
  rw [value_answerByPlan_eq hrouter, value_answerByPlan_eq hother]
  exact hdescent

end Router

end Routing
