import Routing.Proofs.Descent.Visits

/-!
# The matches of registered routes

When trees are those of registered routes, the routes that end where a descent ends are found in
the registry: they answer the method, and their shape is the sequence of edges of the descent. Their
params pair the parameters of their own path with the pieces of the URL.
-/

namespace Routing

variable {H : Type}

/-- The routes whose method has exactly the given token. -/
def routesFor (token : String) (routes : List (Route H)) : List (Route H) :=
  routes.filter (·.method.token = token)

/-- A route as the match of a URL with the given pieces. -/
def matchAlong (pieces : List String) (route : Route H) : Match H :=
  ⟨route, Params.ofPairs (pairsAlong route.path.segments pieces)⟩

theorem mem_routesFor_iff {token : String} {routes : List (Route H)} {r : Route H} :
    r ∈ routesFor token routes ↔ r ∈ routes ∧ r.method.token = token := by
  simp [routesFor]

theorem map_route_matchAlong (pieces : List String) (routes : List (Route H)) :
    (routes.map (matchAlong pieces)).map (·.route) = routes := by
  rw [List.map_map]
  exact List.map_id _

theorem routesFor_sublist (token : String) (routes : List (Route H)) :
    List.Sublist (routesFor token routes) routes :=
  List.filter_sublist

theorem routesFor_eq_routesOf {token : String} {method : Method}
    (h : Method.ofToken? token = some method) (routes : List (Route H)) :
    routesFor token routes = Forest.routesOf method routes := by
  have htoken := Method.ofToken?_eq_some_iff.1 h
  apply List.filter_congr
  intro r _
  rw [← htoken, decide_eq_decide]
  exact ⟨Method.token_injective, congrArg Method.token⟩

theorem routesFor_eq_nil {token : String} (h : Method.ofToken? token = none)
    (routes : List (Route H)) : routesFor token routes = [] := by
  rw [routesFor, List.filter_eq_nil_iff]
  intro r _ htoken
  have hsome := Method.ofToken?_eq_some_iff.2 (of_decide_eq_true htoken)
  rw [h] at hsome
  cases hsome

namespace Forest

/-- A request descends in the tree of the routes that answer its method, if there are any. -/
theorem descend_ofRoutes (routes : List (Route H)) (method url : String) :
    (Forest.ofRoutes routes).descend method url =
      if routesFor method routes = [] then none
      else (Node.ofRoutes (routesFor method routes)).descend (Url.pieces url) := by
  rw [descend]
  cases hmethod : Method.ofToken? method with
  | none => simp [routesFor_eq_nil hmethod]
  | some m =>
    rw [Option.bind_some, tree?_ofRoutes, treeFor?, routesFor_eq_routesOf hmethod]
    by_cases hown : routesOf m routes = [] <;> simp [hown]

theorem descend_ofRoutes_eq_some {routes : List (Route H)} {method url : String} {last : Node}
    {visits : List Visit} (h : (Forest.ofRoutes routes).descend method url = some (last, visits)) :
    (Node.ofRoutes (routesFor method routes)).descend (Url.pieces url) = some (last, visits) := by
  rw [descend_ofRoutes] at h
  by_cases hown : routesFor method routes = []
  · rw [if_pos hown] at h
    cases h
  · rwa [if_neg hown] at h

/-- The routes that end where a descent ends: those of its method and its shape. -/
def foundBy (method : String) (routes : List (Route H)) (visits : List Visit) : List (Route H) :=
  (routesFor method routes).filter (·.path.shape = edgesOf visits)

theorem mem_foundBy {method : String} {routes : List (Route H)} {visits : List Visit}
    {r : Route H} :
    r ∈ foundBy method routes visits ↔
      r ∈ routesFor method routes ∧ r.path.shape = edgesOf visits := by
  simp [foundBy]

theorem routes_of_descend {routes : List (Route H)} {method url : String} {last : Node}
    {visits : List Visit} (h : (Forest.ofRoutes routes).descend method url = some (last, visits)) :
    last.entry.routes = (foundBy method routes visits).map (·.id) :=
  Node.routes_of_at?_ofRoutes
    (Node.at?_of_descend (Node.labelled_ofRoutes _) (descend_ofRoutes_eq_some h))

/-- The matches of a request, by descent in the forest of a registry. -/
theorem matches?_ofRoutes (registry : Registry H) (method url : String) :
    (Forest.ofRoutes registry.routes).matches? registry.routes method url =
      ((Forest.ofRoutes registry.routes).descend method url).bind fun (_, visits) =>
        let found := foundBy method registry.routes visits
        if found = [] then none else some (found.map (matchAlong (Url.pieces url))) := by
  rw [matches?]
  cases hdescend : (Forest.ofRoutes registry.routes).descend method url with
  | none => rfl
  | some pair =>
    rcases pair with ⟨last, visits⟩
    have hroutes := routes_of_descend hdescend
    have hdescend' := descend_ofRoutes_eq_some hdescend
    -- every number at the node is that of a registered route, so no lookup fails
    have hmatches : (last.entry.routes.filterMap fun id =>
        registry.routes[id]?.map fun route => (⟨route, paramsAlong id visits⟩ : Match H)) =
        (foundBy method registry.routes visits).map (matchAlong (Url.pieces url)) := by
      rw [hroutes, List.filterMap_map, ← List.filterMap_eq_map]
      apply List.filterMap_congr
      intro r hr
      rcases mem_foundBy.1 hr with ⟨hown, hshape⟩
      have hmem := (routesFor_sublist method registry.routes).mem hown
      have hids := registry.nodup_ids (routesFor_sublist method registry.routes)
      simp only [Function.comp_apply, registry.getElem?_id hmem, Option.map_some,
        paramsAlong_eq hids hdescend' hown hshape, matchAlong]
    simp only [Option.bind_some, hmatches, hroutes, List.isEmpty_iff, List.map_eq_nil_iff]

end Forest

end Routing
