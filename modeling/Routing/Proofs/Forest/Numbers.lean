import Routing.Proofs.Forest.Size
import Routing.Proofs.Tree.Frame

/-!
# The trees of a forest and the numbers they hold

Every route of a list is inserted into one tree, that of its method. So there are as many trees as
methods among the routes, and all nodes of all trees together hold the number of every route, as
often as a route has it.

* `Forest.length_trees_ofRoutes` — how many trees a forest has.
* `Forest.numbers_ofRoutes_perm` — the numbers that its nodes hold.
-/

namespace Routing

variable {H : Type}

namespace Forest

/-- The numbers that the nodes of all trees hold. -/
def numbers (forest : Forest) : List Nat :=
  forest.trees.flatMap fun (_, root) => root.routes

/-- There is one tree for every method of a route. -/
theorem length_trees_ofRoutes (routes : List (Route H)) :
    (Forest.ofRoutes routes).trees.length = (routes.map (·.method)).toFinset.card := by
  have hmethods : ((Forest.ofRoutes routes).trees.map (·.1)).toFinset =
      (routes.map (·.method)).toFinset := by
    ext method
    rw [trees_ofRoutes_eq_map, List.map_map]
    simp [routesOf_ne_nil_iff, Method.mem_all]
  rw [← hmethods, List.toFinset_card_of_nodup (nodup_methods_ofRoutes routes), List.length_map]

/-- Routes sorted by some methods are the routes of these methods. -/
theorem flatMap_routesOf_perm (routes : List (Route H)) {methods : List Method}
    (h : methods.Nodup) :
    (methods.flatMap fun method => routesOf method routes).Perm
      (routes.filter (·.method ∈ methods)) := by
  induction methods with
  | nil => simp
  | cons method methods ih =>
    rw [List.nodup_cons] at h
    -- of the routes of all these methods, those of the first and those of the others
    have hfirst : (routes.filter (·.method ∈ method :: methods)).filter (·.method = method) =
        routesOf method routes := by
      rw [List.filter_filter, routesOf]
      apply List.filter_congr
      intro r _
      simp +contextual
    have hothers : (routes.filter (·.method ∈ method :: methods)).filter
        (fun r => !decide (r.method = method)) = routes.filter (·.method ∈ methods) := by
      rw [List.filter_filter]
      apply List.filter_congr
      intro r _
      by_cases hr : r.method = method
      · simp [hr, h.1]
      · simp [hr]
    have hsplit := List.filter_append_perm (fun r : Route H => decide (r.method = method))
      (routes.filter (·.method ∈ method :: methods))
    rw [hfirst, hothers] at hsplit
    exact ((ih h.2).append_left _).trans hsplit

/-- The nodes of a forest hold the numbers of its routes, none less and none more. -/
theorem numbers_ofRoutes_perm (routes : List (Route H)) :
    (Forest.ofRoutes routes).numbers.Perm (routes.map (·.id)) := by
  let methods := Method.all.filter fun method => routesOf method routes ≠ []
  have hall : routes.filter (·.method ∈ methods) = routes := by
    rw [List.filter_eq_self]
    intro r hr
    simpa [methods, Method.mem_all, routesOf_ne_nil_iff] using ⟨r, hr, rfl⟩
  have hsorted := flatMap_routesOf_perm routes (Method.nodup_all.filter _ : methods.Nodup)
  rw [hall] at hsorted
  have hnumbers : (Forest.ofRoutes routes).numbers.Perm
      (methods.flatMap fun method => (routesOf method routes).map (·.id)) := by
    rw [numbers, trees_ofRoutes_eq_map, List.flatMap_map]
    exact List.Perm.flatMap_left _ fun method _ => Node.routes_ofRoutes_perm _
  rw [← List.map_flatMap] at hnumbers
  exact hnumbers.trans (hsorted.map _)

end Forest

end Routing
