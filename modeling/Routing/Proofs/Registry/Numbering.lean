import Mathlib
import Routing.Tree.Forest

/-!
# The numbers of registered routes

The number of a route is its index, so a number names one route, the numbers ascend in the order of
registration, and the same holds of the routes of one method.
-/

namespace Routing

variable {H : Type}

namespace Registry

theorem getElem?_id (registry : Registry H) {route : Route H} (h : route ∈ registry.routes) :
    registry.routes[route.id]? = some route := by
  rcases List.mem_iff_getElem?.1 h with ⟨i, hi⟩
  rwa [registry.numbered hi]

theorem id_lt_length (registry : Registry H) {route : Route H} (h : route ∈ registry.routes) :
    route.id < registry.routes.length := by
  have hat := registry.getElem?_id h
  exact (List.getElem?_eq_some_iff.1 hat).1

/-- A number names one route. -/
theorem eq_of_id_eq (registry : Registry H) {r s : Route H} (hr : r ∈ registry.routes)
    (hs : s ∈ registry.routes) (h : r.id = s.id) : r = s := by
  -- both routes are the one that the registry has at this index
  have hboth := registry.getElem?_id hr
  rw [h, registry.getElem?_id hs] at hboth
  exact (Option.some.inj hboth).symm

/-- The numbers ascend from zero without a gap. -/
theorem ids_eq_range (registry : Registry H) :
    registry.routes.map (·.id) = List.range registry.routes.length := by
  apply List.ext_getElem?
  intro i
  rw [List.getElem?_map]
  by_cases hi : i < registry.routes.length
  · have hroute := List.getElem?_eq_getElem hi
    rw [hroute, List.getElem?_range hi, Option.map_some, registry.numbered hroute]
  · simp [hi]

/-- Among any selection of routes the numbers ascend. -/
theorem pairwise_ids (registry : Registry H) {chosen : List (Route H)}
    (h : List.Sublist chosen registry.routes) : (chosen.map (·.id)).Pairwise (· < ·) := by
  have hsub := h.map (·.id)
  rw [ids_eq_range] at hsub
  exact List.pairwise_lt_range.sublist hsub

theorem nodup_ids (registry : Registry H) {chosen : List (Route H)}
    (h : List.Sublist chosen registry.routes) : (chosen.map (·.id)).Nodup :=
  (registry.pairwise_ids h).imp Nat.ne_of_lt

end Registry

namespace Forest

theorem mem_routesOf {method : Method} {routes : List (Route H)} {route : Route H} :
    route ∈ routesOf method routes ↔ route ∈ routes ∧ route.method = method := by
  simp [routesOf]

theorem routesOf_ne_nil_iff {method : Method} {routes : List (Route H)} :
    routesOf method routes ≠ [] ↔ ∃ r ∈ routes, r.method = method := by
  rw [ne_eq, List.eq_nil_iff_forall_not_mem, not_forall_not]
  exact exists_congr fun _ => mem_routesOf

theorem routesOf_sublist (method : Method) (routes : List (Route H)) :
    List.Sublist (routesOf method routes) routes :=
  List.filter_sublist

end Forest

end Routing
