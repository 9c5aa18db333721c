import Routing.Proofs.Descent.Correspondence

/-!
# The order of registration

Definitions registered in another order give routes with other numbers, trees that are put together
differently, and plans with other slots. Where a request goes depends on the shapes of the routes
only, and these do not know their numbers. So the same definitions win, and the order of registration
is seen in the order of the matches alone.

* `Route.content` — what a route keeps in any order of registration.
* `Answer.Alike` — two routers answer a request with the same contents.
* `Router.answers_of_perm` — routers with the same definitions do so, by descent and by plan.
-/

namespace Routing

variable {H : Type}

/-! ## Contents -/

/-- What a route says apart from its number. -/
def Route.content (route : Route H) : Method × Path × H :=
  (route.method, route.path, route.handler)

/-- What a match says apart from the number of its route. -/
def Match.content (m : Match H) : (Method × Path × H) × Params :=
  (m.route.content, m.params)

/-- The content of the route that a definition becomes, if its method is known. -/
def Definition.content? (d : Definition H) : Option (Method × Path × H) :=
  match Method.parse d.method with
  | .ok method => some (method, Path.ofText d.path, d.handler)
  | .error _ => none

theorem Registry.contents_next_register (registry : Registry H) (d : Definition H) :
    (registry.next (.register d)).routes.map Route.content =
      registry.routes.map Route.content ++ d.content?.toList := by
  rw [Registry.next, Definition.content?]
  cases Method.parse d.method with
  | ok method => exact List.map_append
  | error cause => exact (List.append_nil _).symm

theorem Registry.contents_registered (registry : Registry H) (ds : List (Definition H)) :
    ((ds.map Operation.register).foldl Registry.next registry).routes.map Route.content =
      registry.routes.map Route.content ++ ds.filterMap Definition.content? := by
  induction ds generalizing registry with
  | nil => simp
  | cons d ds ih =>
    rw [List.map_cons, List.foldl_cons, ih, contents_next_register, List.append_assoc]
    congr 1
    cases hcontent : d.content? <;> simp [hcontent]

/-- A router has the contents of the definitions that were registered, in the same order. -/
theorem Router.contents_after (ds : List (Definition H)) :
    (after (ds.map .register)).routes.map Route.content = ds.filterMap Definition.content? := by
  rw [routes, registry_after]
  exact Registry.contents_registered .empty ds

/-! ## Routes with the same contents -/

/-- Two lists of routes have the same contents, each as often. -/
def SameContents (routes others : List (Route H)) : Prop :=
  (routes.map Route.content).Perm (others.map Route.content)

namespace SameContents

variable {routes others : List (Route H)}

theorem symm (h : SameContents routes others) : SameContents others routes :=
  List.Perm.symm h

/-- Choosing routes by their content. -/
theorem filter (h : SameContents routes others) (test : Method × Path × H → Bool) :
    SameContents (routes.filter fun r => test r.content)
      (others.filter fun r => test r.content) := by
  have hchosen := List.Perm.filter test h
  rw [List.filter_map, List.filter_map] at hchosen
  exact hchosen

theorem routesFor (h : SameContents routes others) (token : String) :
    SameContents (routesFor token routes) (routesFor token others) :=
  h.filter fun content => content.1.token = token

theorem endingAt (h : SameContents routes others) (edges : List Edge) :
    SameContents (endingAt routes edges) (endingAt others edges) :=
  h.filter fun content => content.2.1.shape = edges

theorem passed (h : SameContents routes others) {edges : List Edge}
    (hpassed : Passed routes edges) : Passed others edges := by
  rcases hpassed with ⟨r, hr, hbegins⟩
  have hmem : r.content ∈ others.map Route.content := h.mem_iff.1 (List.mem_map_of_mem hr)
  rcases List.mem_map.1 hmem with ⟨r', hr', hcontent⟩
  have hpath : r'.path = r.path := congrArg (·.2.1) hcontent
  rw [← hpath] at hbegins
  exact ⟨r', hr', hbegins⟩

/-- The survivors of a request have the same contents too. -/
theorem survivors (h : SameContents routes others) (method url : String) :
    SameContents (Narrowing.survivors routes method url)
      (Narrowing.survivors others method url) := by
  have hown := h.routesFor method
  have hpassed : ∀ front,
      Passed (Routing.routesFor method routes) front ↔
        Passed (Routing.routesFor method others) front := by
    intro front
    exact ⟨hown.passed, hown.symm.passed⟩
  exact Narrowing.survivors_related SameContents (List.Perm.refl _) hpassed hown.endingAt url

/-- As matches of a URL, routes with the same contents have the same contents and params. -/
theorem matches_perm (h : SameContents routes others) (pieces : List String) :
    ((routes.map (matchAlong pieces)).map Match.content).Perm
      ((others.map (matchAlong pieces)).map Match.content) := by
  -- the params are made from the path and the pieces
  have hmap := List.Perm.map (fun content : Method × Path × H =>
    (content, Params.ofPairs (pairsAlong content.2.1.segments pieces))) h
  rw [List.map_map, List.map_map] at hmap ⊢
  exact hmap

end SameContents

/-! ## Answers -/

/-- Two answers to a request, given from two lists of routes, say the same up to the order in which
the routes stand in each list. -/
inductive Answer.Alike (routes others : List (Route H)) (method url : String) :
    Answer H → Answer H → Prop
  /-- Both name the request, for which nothing was found. -/
  | notFound : Alike routes others method url (.error (.routeNotFound method url))
      (.error (.routeNotFound method url))
  /-- Both have the same contents with the same params, each in the order of its own list. -/
  | found (ms ms' : List (Match H))
      (contents : (ms.map Match.content).Perm (ms'.map Match.content))
      (order : List.Sublist (ms.map (·.route)) routes)
      (order' : List.Sublist (ms'.map (·.route)) others) :
      Alike routes others method url (.ok ms) (.ok ms')

namespace Router

/-- The matches of the survivors stand in the order of registration. -/
theorem sublist_route_matches (routes : List (Route H)) (method url : String) :
    List.Sublist (((Narrowing.survivors routes method url).map
      (matchAlong (Url.pieces url))).map (·.route)) routes := by
  rw [map_route_matchAlong]
  exact Narrowing.survivors_sublist routes method url

/-- Coherent routers whose routes have the same contents answer alike. -/
theorem alike_of_sameContents {router other : Router H} (hrouter : router.Coherent)
    (hother : other.Coherent) (h : SameContents router.routes other.routes)
    (method url : String) :
    Answer.Alike router.routes other.routes method url (router.answer method url).value.1
      (other.answer method url).value.1 := by
  have hsurvivors := h.survivors method url
  have hlen := List.Perm.length_eq hsurvivors
  rw [List.length_map, List.length_map] at hlen
  refine answer_related (Answer.Alike router.routes other.routes method url) hrouter hother hlen
    .notFound ?_
  exact .found _ _ (hsurvivors.matches_perm _) (sublist_route_matches _ _ _)
    (sublist_route_matches _ _ _)

/-- Registering definitions in another order leaves the answer to every request as it is, by descent
and by plan, but for the order of the matches, which is that of the registrations. -/
theorem answers_of_perm {ds ds' : List (Definition H)} (h : ds.Perm ds') (method url : String) :
    let router := after (ds.map .register)
    let other := after (ds'.map .register)
    Answer.Alike router.routes other.routes method url (router.answer method url).value.1
        (other.answer method url).value.1 ∧
      Answer.Alike router.routes other.routes method url
        (router.answerByPlan method url).value.1 (other.answerByPlan method url).value.1 := by
  intro router other
  have hrouter : router.Coherent := coherent_after _
  have hother : other.Coherent := coherent_after _
  have hcontents : SameContents router.routes other.routes := by
    rw [SameContents, contents_after, contents_after]
    exact h.filterMap _
  have halike := alike_of_sameContents hrouter hother hcontents method url
  refine ⟨halike, ?_⟩
  rw [value_answerByPlan_eq hrouter, value_answerByPlan_eq hother]
  exact halike

/-- A literal registered behind a parameter wins over it as if it had come first. -/
theorem answers_of_perm_swap :
    let first : Definition Nat := ⟨"GET", "/posts/:id", 0⟩
    let second : Definition Nat := ⟨"GET", "/posts/new", 1⟩
    let router := after ([first, second].map .register)
    let other := after ([second, first].map .register)
    [first, second].Perm [second, first] ∧
      (∃ m, (router.answer "GET" "/posts/new").value.1 = .ok [m] ∧ m.route.handler = 1) ∧
      (∃ m, (other.answer "GET" "/posts/new").value.1 = .ok [m] ∧ m.route.handler = 1) ∧
      Answer.Alike router.routes other.routes "GET" "/posts/new"
        (router.answer "GET" "/posts/new").value.1 (other.answer "GET" "/posts/new").value.1 ∧
      Answer.Alike router.routes other.routes "GET" "/posts/new"
        (router.answerByPlan "GET" "/posts/new").value.1
        (other.answerByPlan "GET" "/posts/new").value.1 :=
  ⟨List.Perm.swap _ _ _, ⟨_, rfl, rfl⟩, ⟨_, rfl, rfl⟩, answers_of_perm (List.Perm.swap _ _ _) _ _⟩

end Router

end Routing
