import Routing.Proofs.Descent.Correspondence
import Routing.Proofs.Session.Order

/-!
# Methods do not see each other

The routes of all methods are numbered together, and their numbers are what trees, names and slots
refer to. Without the definitions of other methods the routes of a method get other numbers, in the
same order, and nothing else: a request of the method is answered by the same matches, each with its
route under the other number.

* `Route.renumber`, `Answer.renumber` — the same under other numbers.
* `numberIn` — the renumbering that keeps the order of some routes.
* `Router.answers_of_own_method` — the routes of one method alone decide its answers.
-/

namespace Routing

variable {H : Type}

/-! ## Renumbering -/

/-- The route under another number. -/
def Route.renumber (number : Nat → Nat) (route : Route H) : Route H :=
  { route with id := number route.id }

/-- The match with its route under another number. -/
def Match.renumber (number : Nat → Nat) (m : Match H) : Match H :=
  { m with route := m.route.renumber number }

/-- The answer with all its routes under other numbers. -/
def Answer.renumber (number : Nat → Nat) (answer : Answer H) : Answer H :=
  answer.map (List.map (Match.renumber number))

theorem Route.eq_of_content_eq {r s : Route H} (hid : r.id = s.id)
    (hcontent : r.content = s.content) : r = s := by
  cases r
  cases s
  simp only [Route.content, Prod.mk.injEq] at hid hcontent
  rw [hid, hcontent.1, hcontent.2.1, hcontent.2.2]

/-- Answers whose matches are the same under other numbers. -/
theorem Answer.eq_renumber_of_corresponds {number : Nat → Nat} {method url : String}
    {answer other : Answer H}
    (h : Corresponds (fun m m' => m = m'.renumber number) method url answer other) :
    answer = other.renumber number := by
  cases h with
  | notFound => rfl
  | found ms ms' related =>
    have hms : ms = ms'.map (Match.renumber number) := by
      rwa [← List.forall₂_eq_eq_eq, List.forall₂_map_right_iff]
    rw [hms]
    rfl

/-! ## The renumbering that keeps the order -/

/-- The number of the route at a place of a list. Places behind the list get numbers from `beyond`
on. -/
def numberIn (routes : List (Route H)) (beyond place : Nat) : Nat :=
  (routes[place]?.map (·.id)).getD (beyond + place)

theorem numberIn_of_getElem? {routes : List (Route H)} {place : Nat} {r : Route H}
    (h : routes[place]? = some r) (beyond : Nat) : numberIn routes beyond place = r.id := by
  rw [numberIn, h]
  rfl

/-- Places are renumbered in order when the numbers of the routes ascend. -/
theorem strictMono_numberIn {routes : List (Route H)} {beyond : Nat}
    (hascend : (routes.map (·.id)).Pairwise (· < ·)) (hbelow : ∀ r ∈ routes, r.id < beyond) :
    StrictMono (numberIn routes beyond) := by
  apply strictMono_nat_of_lt_succ
  intro place
  by_cases hnext : place + 1 < routes.length
  · have hplace : place < routes.length := by omega
    rw [numberIn_of_getElem? (List.getElem?_eq_getElem hplace),
      numberIn_of_getElem? (List.getElem?_eq_getElem hnext)]
    have hpairs := List.pairwise_iff_getElem.1 (List.pairwise_map.1 hascend)
    exact hpairs place (place + 1) hplace hnext (by omega)
  · have hend : numberIn routes beyond (place + 1) = beyond + (place + 1) := by
      rw [numberIn, List.getElem?_eq_none (by omega)]
      rfl
    rw [hend]
    by_cases hplace : place < routes.length
    · rw [numberIn_of_getElem? (List.getElem?_eq_getElem hplace)]
      have hid := hbelow _ (List.getElem_mem hplace)
      omega
    · rw [numberIn, List.getElem?_eq_none (by omega)]
      show beyond + place < beyond + (place + 1)
      omega

/-- A registry with the contents of some routes has these routes, but for their numbers. -/
theorem Registry.map_renumber_eq (registry : Registry H) {own : List (Route H)}
    (hcontents : registry.routes.map Route.content = own.map Route.content) (beyond : Nat) :
    registry.routes.map (·.renumber (numberIn own beyond)) = own := by
  have hlen : registry.routes.length = own.length := by
    simpa using congrArg List.length hcontents
  apply List.ext_getElem (by simpa using hlen)
  intro place hplace hown
  rw [List.length_map] at hplace
  rw [List.getElem_map]
  apply Route.eq_of_content_eq
  · -- in the registry the number of a route is its place
    have hid := registry.numbered (List.getElem?_eq_getElem hplace)
    show numberIn own beyond registry.routes[place].id = own[place].id
    rw [hid]
    exact numberIn_of_getElem? (List.getElem?_eq_getElem hown) beyond
  · have hcontent : (registry.routes.map Route.content)[place]? =
        (own.map Route.content)[place]? := by rw [hcontents]
    show registry.routes[place].content = own[place].content
    simpa [List.getElem?_map, List.getElem?_eq_getElem hplace,
      List.getElem?_eq_getElem hown] using hcontent

/-! ## The definitions of one method -/

/-- The definition is for the method that has exactly this token. -/
def Definition.isFor (token : String) (d : Definition H) : Bool :=
  match Method.parse d.method with
  | .ok method => method.token = token
  | .error _ => false

/-- The definitions for a method become its routes. -/
theorem filterMap_content?_isFor (token : String) (ds : List (Definition H)) :
    (ds.filter (·.isFor token)).filterMap Definition.content? =
      (ds.filterMap Definition.content?).filter (·.1.token = token) := by
  rw [List.filterMap_filter, List.filter_filterMap]
  apply List.filterMap_congr
  intro d _
  rw [Definition.isFor, Definition.content?]
  cases Method.parse d.method with
  | error cause => rfl
  | ok method =>
    by_cases htoken : method.token = token <;> simp [Option.filter, htoken]

/-- A definition for another method leaves the routes of a method as they are. -/
theorem Registry.routesFor_next_of_not_isFor (registry : Registry H) {token : String}
    {d : Definition H} (h : d.isFor token = false) :
    routesFor token (registry.next (.register d)).routes = routesFor token registry.routes := by
  rw [Definition.isFor] at h
  rw [Registry.next]
  cases hmethod : Method.parse d.method with
  | error cause => rfl
  | ok method =>
    rw [hmethod] at h
    have hother : method.token ≠ token := of_decide_eq_false h
    show routesFor token (registry.routes ++ [registry.nextRoute method _ d.handler]) = _
    rw [routesFor, routesFor, List.filter_append]
    simp [Registry.nextRoute, hother]

/-- Definitions for other methods leave the routes of a method as they are. -/
theorem Registry.routesFor_registered_of_not_isFor (registry : Registry H) {token : String}
    {ds : List (Definition H)} (h : ∀ d ∈ ds, d.isFor token = false) :
    routesFor token ((ds.map Operation.register).foldl Registry.next registry).routes =
      routesFor token registry.routes := by
  induction ds generalizing registry with
  | nil => rfl
  | cons d ds ih =>
    have hfirst := registry.routesFor_next_of_not_isFor (h d List.mem_cons_self)
    have hrest := ih (registry.next (.register d)) fun e he => h e (List.mem_cons_of_mem _ he)
    rw [List.map_cons, List.foldl_cons, hrest, hfirst]

/-! ## One method alone -/

namespace Router

/-- A router with the definitions for one method has the routes of this method. -/
theorem contents_of_own_method (ds : List (Definition H)) (token : String) :
    (after ((ds.filter (·.isFor token)).map .register)).routes.map Route.content =
      (routesFor token (after (ds.map .register)).routes).map Route.content := by
  have hown : (routesFor token (after (ds.map .register)).routes).map Route.content =
      ((after (ds.map .register)).routes.map Route.content).filter (·.1.token = token) := by
    rw [List.filter_map]
    rfl
  rw [hown, contents_after, contents_after, filterMap_content?_isFor]

/-- All routes of a router with the definitions for one method are routes of this method. -/
theorem routesFor_of_own_method (ds : List (Definition H)) (token : String) :
    routesFor token (after ((ds.filter (·.isFor token)).map .register)).routes =
      (after ((ds.filter (·.isFor token)).map .register)).routes := by
  rw [routesFor, List.filter_eq_self]
  intro s hs
  have hcontent := List.mem_map_of_mem (f := Route.content) hs
  rw [contents_of_own_method] at hcontent
  rcases List.mem_map.1 hcontent with ⟨r, hr, hsame⟩
  have hmethod : r.method = s.method := congrArg Prod.fst hsame
  rw [← hmethod]
  exact decide_eq_true (mem_routesFor_iff.1 hr).2

/-- Coherent routers whose routes of a method are the same, but for their numbers, answer its
requests by the same matches under these numbers. -/
theorem answers_of_renumbered {router other : Router H} (hrouter : router.Coherent)
    (hother : other.Coherent) {number : Nat → Nat} {token : String}
    (h : routesFor token router.routes = (routesFor token other.routes).map (·.renumber number))
    (url : String) :
    (router.answer token url).value.1 = (other.answer token url).value.1.renumber number ∧
      (router.answerByPlan token url).value.1 =
        (other.answerByPlan token url).value.1.renumber number := by
  have hrelated : List.Forall₂ (fun r s => r = s.renumber number)
      (routesFor token router.routes) (routesFor token other.routes) := by
    rw [← List.forall₂_map_right_iff, List.forall₂_eq_eq_eq, h]
  have hshape : ∀ r s : Route H, r = s.renumber number → r.path.shape = s.path.shape := by
    intro r s hrs
    rw [hrs]
    rfl
  have hmatch : ∀ r s : Route H, r.path.segments.length = (Url.pieces url).length →
      r = s.renumber number → matchAlong (Url.pieces url) r =
        (matchAlong (Url.pieces url) s).renumber number := by
    intro r s _ hrs
    rw [hrs]
    rfl
  rcases answers_corresponding (fun m m' => m = m'.renumber number) hrouter hother
    hshape hmatch hrelated with ⟨hdescent, hplan⟩
  exact ⟨Answer.eq_renumber_of_corresponds hdescent, Answer.eq_renumber_of_corresponds hplan⟩

/-- Coherent routers that have the same routes of a method give the same answers to its requests. -/
theorem answers_of_routesFor_eq {router other : Router H} (hrouter : router.Coherent)
    (hother : other.Coherent) {token : String}
    (h : routesFor token router.routes = routesFor token other.routes) (url : String) :
    (router.answer token url).value.1 = (other.answer token url).value.1 ∧
      (router.answerByPlan token url).value.1 = (other.answerByPlan token url).value.1 := by
  have hsurvivors : Narrowing.survivors router.routes token url =
      Narrowing.survivors other.routes token url := by
    show (Narrowing.narrowAll (routesFor token router.routes) 0 (Url.pieces url)).filter _ = _
    rw [h]
    rfl
  have hanswer : (router.answer token url).value.1 = (other.answer token url).value.1 := by
    rw [answer_eq hrouter, answer_eq hother, hsurvivors]
  refine ⟨hanswer, ?_⟩
  rw [value_answerByPlan_eq hrouter, value_answerByPlan_eq hother]
  exact hanswer

/-- A request of a method is answered as by a router with the definitions for this method alone, but
for the numbers of the routes: these are replaced in order, so that the routes of the one router
become those that the other has for the method. And definitions for other methods that are
registered behind the others leave the answer as it is. -/
theorem answers_of_own_method (ds : List (Definition H)) (token : String) :
    let router := after (ds.map .register)
    let alone := after ((ds.filter (·.isFor token)).map .register)
    (∃ number : Nat → Nat, StrictMono number ∧
      alone.routes.map (·.renumber number) = routesFor token router.routes ∧
      ∀ url,
        (router.answer token url).value.1 = (alone.answer token url).value.1.renumber number ∧
        (router.answerByPlan token url).value.1 =
          (alone.answerByPlan token url).value.1.renumber number) ∧
    ∀ more : List (Definition H), (∀ d ∈ more, d.isFor token = false) → ∀ url,
      ((after ((ds ++ more).map .register)).answer token url).value.1 =
          (router.answer token url).value.1 ∧
        ((after ((ds ++ more).map .register)).answerByPlan token url).value.1 =
          (router.answerByPlan token url).value.1 := by
  intro router alone
  have hrouter : router.Coherent := coherent_after _
  have halone : alone.Coherent := coherent_after _
  constructor
  · let number := numberIn (routesFor token router.routes) router.routes.length
    have hroutes : alone.routes.map (·.renumber number) = routesFor token router.routes :=
      alone.registry.map_renumber_eq (contents_of_own_method ds token) _
    refine ⟨number, ?_, hroutes, ?_⟩
    · apply strictMono_numberIn
      · exact router.registry.pairwise_ids (routesFor_sublist token router.routes)
      · intro r hr
        exact router.registry.id_lt_length ((routesFor_sublist token router.routes).mem hr)
    · refine answers_of_renumbered hrouter halone ?_
      rw [routesFor_of_own_method, hroutes]
  · intro more hmore url
    refine answers_of_routesFor_eq (coherent_after _) hrouter ?_ url
    show routesFor token (after _).registry.routes = routesFor token (after _).registry.routes
    rw [registry_after, registry_after, List.map_append, List.foldl_append]
    exact Registry.routesFor_registered_of_not_isFor _ hmore

end Router

end Routing
