import Routing.Proofs.Descent.Matches
import Routing.Proofs.Plan.Execution
import Routing.Proofs.Session.Coherence

/-!
# Plan and descent agree

A plan that is compiled and run with the routes of its forest gives the same matches as the descent:
the positions in the table of parameters are places where the shape has a wildcard, so every slot is
filled, and with the piece that the descent pairs with the name.
-/

namespace Routing

variable {H : Type}

/-- Where a path has a parameter, a descent of its shape captures the piece. -/
theorem captured?_of_lastAt {node last : Node} {pieces : List String} {visits : List Visit}
    (hnode : node.Labelled) (h : node.descend pieces = some (last, visits)) {path : Path}
    (hshape : path.shape = edgesOf visits) {name : String} {position : Nat}
    (hlast : LastAt path.segments name position) :
    visits[position]?.bind Visit.captured? = pieces[position]? := by
  have hedge : (edgesOf visits)[position]? = some .wildcard := by
    rw [← hshape, Path.shape, List.getElem?_map, hlast.1]
    rfl
  apply Option.ext
  intro value
  rw [captured?_eq_some_iff hnode h, hedge]
  exact and_iff_right rfl

/-- The names of a route, put to the values of its own slots. -/
theorem toMatch_valuesAlong {node last : Node} {pieces : List String} {visits : List Visit}
    (hnode : node.Labelled) (h : node.descend pieces = some (last, visits)) {r : Route H}
    (hshape : r.path.shape = edgesOf visits) :
    (⟨r.id, valuesAlong r.parameters visits⟩ : Hit).toMatch r = matchAlong pieces r := by
  have hlen : r.path.segments.length = pieces.length := by
    rw [← Path.length_shape, hshape, Node.length_edgesOf hnode h]
  have htable : r.parameters = tableOf r.path.segments := rfl
  simp only [Hit.toMatch, matchAlong, ← ofPairs_table_eq hlen, valuesAlong,
    List.filterMap_filterMap, ← htable]
  congr 2
  -- the index of a parameter leads back to the parameter itself
  have hzip : r.parameters = r.parameters.zipIdx.map Prod.fst := by simp
  conv_rhs => rw [hzip, List.filterMap_map]
  apply List.filterMap_congr
  intro entry hentry
  have hindex : r.parameters[entry.2]? = some entry.1 := List.mem_zipIdx_iff_getElem?.1 hentry
  have hmem : entry.1 ∈ r.parameters := List.mem_of_getElem? hindex
  rw [htable, mem_tableOf_iff] at hmem
  simp only [captured?_of_lastAt hnode h hshape hmem, Function.comp_apply]
  cases pieces[entry.1.position]? <;> simp [hindex]

/-- A step that succeeds on every element succeeds on the list. -/
theorem mapM_eq_some_map {α β : Type} {f : α → Option β} {g : α → β} {as : List α}
    (h : ∀ a ∈ as, f a = some (g a)) : as.mapM f = some (as.map g) := by
  rw [mapM_eq_some_iff, List.forall₂_map_right_iff, List.forall₂_same]
  exact h

/-- The matches of the plan of a registry are those of the descent. -/
theorem matches?_plan_eq (registry : Registry H) (method url : String) :
    (Plan.compile registry.routes (Forest.ofRoutes registry.routes)).matches? registry.routes
        method url =
      (Forest.ofRoutes registry.routes).matches? registry.routes method url := by
  rw [Plan.matches?_compile _ _ (Forest.labelled_ofRoutes _), Forest.matches?_ofRoutes]
  cases hdescend : (Forest.ofRoutes registry.routes).descend method url with
  | none => rfl
  | some pair =>
    rcases pair with ⟨last, visits⟩
    have hdescend' := Forest.descend_ofRoutes_eq_some hdescend
    have hhits : ∀ r ∈ Forest.foundBy method registry.routes visits,
        (⟨r.id, valuesAlong (parametersOf registry.routes r.id) visits⟩ : Hit).toMatch?
          registry.routes = some (matchAlong (Url.pieces url) r) := by
      intro r hr
      rcases Forest.mem_foundBy.1 hr with ⟨hown, hshape⟩
      have hroute := registry.getElem?_id ((routesFor_sublist method registry.routes).mem hown)
      rw [Hit.toMatch?, parametersOf, hroute, Option.map_some,
        toMatch_valuesAlong (Node.labelled_ofRoutes _) hdescend' hshape]
    have hmapM : ((Forest.foundBy method registry.routes visits).mapM fun r =>
        (⟨r.id, valuesAlong (parametersOf registry.routes r.id) visits⟩ : Hit).toMatch?
          registry.routes) =
        some ((Forest.foundBy method registry.routes visits).map (matchAlong (Url.pieces url))) :=
      mapM_eq_some_map hhits
    simp only [Option.bind_some, Forest.routes_of_descend hdescend, List.map_eq_nil_iff,
      List.mapM_map, Function.comp_def, hmapM]

/-- A coherent router gives the same answer by plan as by descent. -/
theorem Router.value_answerByPlan_eq {router : Router H} (h : router.Coherent)
    (method url : String) :
    (router.answerByPlan method url).value.1 = (router.answer method url).value.1 := by
  rw [value_answer h, value_answerByPlan h, Plan.answer, Forest.answer]
  exact congrArg _ (matches?_plan_eq router.registry method url)

/-- In every state of a router a request has the same answer by descent and by plan: either the same
matches, in the same order and with the same params, or the error that names the request. -/
theorem Router.answers_agree (operations : List (Operation H)) (method url : String) :
    (((after operations).answer method url).value.1 = .error (.routeNotFound method url) ∧
      ((after operations).answerByPlan method url).value.1 =
        .error (.routeNotFound method url)) ∨
    ∃ found : List (Match H), ((after operations).answer method url).value.1 = .ok found ∧
      ((after operations).answerByPlan method url).value.1 = .ok found := by
  have hafter := coherent_after operations
  rw [value_answer hafter, value_answerByPlan hafter, Plan.answer, Forest.answer]
  simp only [Router.routes, matches?_plan_eq]
  cases (Forest.ofRoutes (after operations).registry.routes).matches?
      (after operations).registry.routes method url with
  | none => exact Or.inl ⟨rfl, rfl⟩
  | some found => exact Or.inr ⟨found, rfl, rfl⟩

end Routing
