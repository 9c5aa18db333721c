import Routing.Proofs.Forest.Listing

/-!
# The number of nodes

A tree has one node for every sequence of edges that begins the shape of one of its routes, however
many routes begin with it and in whatever order they came. So the size of a forest can be had from
the routes alone, and only their methods and shapes matter for it.

* `Node.count_ofRoutes` — a tree has as many nodes as sequences of edges begin its shapes.
* `Route.kind` — what of a route matters for the size of a forest.
* `Forest.shapePrefixes` — the sequences of edges that begin the shape of a route of a method.
* `Forest.nodeCount_of_kinds` — forests of routes of the same kinds have the same size.
* `Forest.nodeCount_ofRoutes` — the size of a forest, from its routes.
-/

namespace Routing

variable {H K : Type}

/-! ## The size of a tree -/

theorem Branches.length_places (branches : Branches) :
    branches.places.length = branches.count := by
  induction branches with
  | nil => rfl
  | wildcard entry below ih =>
    rw [places, List.length_map, List.length_cons, ih, count, Nat.add_comm]
  | literal text entry below rest ihbelow ihrest =>
    rw [places, List.length_append, List.length_map, List.length_cons, ihbelow, ihrest, count,
      Nat.add_comm 1]

/-- A tree has as many nodes as places. -/
theorem Node.length_places (node : Node) : node.places.length = node.count := by
  rw [places, List.length_cons, Branches.length_places, count, Nat.add_comm]

/-- A tree has one node for every sequence of edges that begins the shape of a route. -/
theorem Node.count_ofRoutes {own : List (Route H)} (h : own ≠ []) :
    (ofRoutes own).count = (own.flatMap (·.path.shape.inits)).toFinset.card := by
  have hplaces := congrArg List.length (edges_places_ofRoutes h)
  rw [List.length_map, length_places] at hplaces
  rw [hplaces, Listing.beginnings, List.length_mergeSort, List.card_toFinset]

/-! ## The size of a forest -/

/-- What of a route matters for the size of a forest. -/
def Route.kind (route : Route H) : Method × List Edge :=
  (route.method, route.path.shape)

namespace Forest

/-- The sequences of edges that begin the shape of a route of a method, the empty one included if
there is such a route. -/
def shapePrefixes (method : Method) (routes : List (Route H)) : Finset (List Edge) :=
  ((routesOf method routes).flatMap (·.path.shape.inits)).toFinset

theorem mem_shapePrefixes_iff {method : Method} {routes : List (Route H)} {edges : List Edge} :
    edges ∈ shapePrefixes method routes ↔
      ∃ kind ∈ routes.map Route.kind, kind.1 = method ∧ edges <+: kind.2 := by
  simp [shapePrefixes, routesOf, Route.kind, and_assoc]

theorem mem_methods_iff {method : Method} {routes : List (Route H)} :
    method ∈ routes.map (·.method) ↔ ∃ kind ∈ routes.map Route.kind, kind.1 = method := by
  simp [Route.kind]

/-- The trees of a forest have different methods. -/
theorem nodup_methods_ofRoutes (routes : List (Route H)) :
    ((Forest.ofRoutes routes).trees.map (·.1)).Nodup := by
  rw [trees_ofRoutes_eq_map, List.map_map]
  have hown : (Method.all.filter fun method => routesOf method routes ≠ []).Nodup :=
    Method.nodup_all.filter _
  simpa [Function.comp_def] using hown

/-- The trees have the sizes that the routes of their methods give them. -/
theorem nodeCount_eq_sum (routes : List (Route H)) :
    (Forest.ofRoutes routes).nodeCount =
      ∑ method ∈ (routes.map (·.method)).toFinset, (shapePrefixes method routes).card := by
  have hmethods : (Method.all.filter fun method => routesOf method routes ≠ []).toFinset =
      (routes.map (·.method)).toFinset := by
    ext method
    rw [List.mem_toFinset, List.mem_toFinset, List.mem_filter, decide_eq_true_eq,
      routesOf_ne_nil_iff, List.mem_map]
    exact and_iff_right (Method.mem_all method)
  -- no method has two trees, so the sum over the trees is one over a set of methods
  have hsum : (Forest.ofRoutes routes).nodeCount =
      ((Forest.ofRoutes routes).trees.map fun tree => tree.2.count).sum := by
    rw [nodeCount, List.sum, List.foldr_map]
  rw [hsum, trees_ofRoutes_eq_map, List.map_map,
    ← List.sum_toFinset _ (Method.nodup_all.filter _), hmethods]
  refine Finset.sum_congr rfl ?_
  intro method hmethod
  have hown := routesOf_ne_nil_iff.2 (List.mem_map.1 (List.mem_toFinset.1 hmethod))
  exact Node.count_ofRoutes hown

/-- Only the kinds of the routes matter for the size of a forest. -/
theorem nodeCount_of_kinds {routes : List (Route H)} {others : List (Route K)}
    (h : ∀ kind, kind ∈ others.map Route.kind ↔ kind ∈ routes.map Route.kind) :
    (Forest.ofRoutes others).nodeCount = (Forest.ofRoutes routes).nodeCount := by
  have hmethods : (others.map (·.method)).toFinset = (routes.map (·.method)).toFinset := by
    ext method
    simp only [List.mem_toFinset, mem_methods_iff, h]
  have hprefixes : ∀ method, shapePrefixes method others = shapePrefixes method routes := by
    intro method
    ext edges
    simp only [mem_shapePrefixes_iff, h]
  rw [nodeCount_eq_sum, nodeCount_eq_sum, hmethods]
  simp only [hprefixes]

/-- The number of nodes of a forest is the sum, over the methods that occur among the routes, of the
number of different sequences of edges that begin the shape of a route of the method. So it stays
the same when the routes come in another order, when a route is there once more at any place, and
when parameters get other names. -/
theorem nodeCount_ofRoutes (routes : List (Route H)) :
    (Forest.ofRoutes routes).nodeCount =
      ∑ method ∈ (routes.map (·.method)).toFinset, (shapePrefixes method routes).card ∧
    (∀ others : List (Route H), others.Perm routes →
      (Forest.ofRoutes others).nodeCount = (Forest.ofRoutes routes).nodeCount) ∧
    (∀ front back : List (Route H), front ++ back = routes → ∀ r ∈ routes, ∀ again : Route H,
      again.method = r.method → again.path = r.path →
      (Forest.ofRoutes (front ++ again :: back)).nodeCount =
        (Forest.ofRoutes routes).nodeCount) ∧
    (∀ renamed : List (Route K),
      List.Forall₂ (fun r s => s.method = r.method ∧ s.path.shape = r.path.shape) routes renamed →
      (Forest.ofRoutes renamed).nodeCount = (Forest.ofRoutes routes).nodeCount) := by
  refine ⟨nodeCount_eq_sum routes, ?_, ?_, ?_⟩
  · intro others hperm
    exact nodeCount_of_kinds fun _ => (hperm.map _).mem_iff
  · rintro front back rfl r hr again hmethod hpath
    apply nodeCount_of_kinds
    intro kind
    have hkind : again.kind = r.kind := by
      rw [Route.kind, hmethod, hpath, Route.kind]
    -- the kind of the repeated route was there before
    have hold : r.kind ∈ (front ++ back).map Route.kind := List.mem_map_of_mem hr
    rw [List.map_append, List.map_cons, hkind, List.mem_append, List.mem_cons, or_left_comm,
      ← List.mem_append, ← List.map_append]
    exact or_iff_right_of_imp fun heq => heq ▸ hold
  · intro renamed hrenamed
    have hkinds : routes.map Route.kind = renamed.map Route.kind := by
      rw [← List.forall₂_eq_eq_eq, List.forall₂_map_left_iff, List.forall₂_map_right_iff]
      exact hrenamed.imp fun _ _ hsame => Prod.ext hsame.1.symm hsame.2.symm
    exact nodeCount_of_kinds fun _ => by rw [hkinds]

/-- A renamed parameter keeps the nodes that two routes share: a root, one for `posts`, one for the
wildcard and one for `new`. -/
theorem nodeCount_ofRoutes_renamed :
    let routes : List (Route Unit) :=
      [⟨0, .get, .ofText "/posts/:id", ()⟩, ⟨1, .get, .ofText "/posts/new", ()⟩]
    let renamed : List (Route String) :=
      [⟨0, .get, .ofText "/posts/:key", "by key"⟩, ⟨0, .get, .ofText "/posts/new", "new"⟩]
    List.Forall₂ (fun r s => s.method = r.method ∧ s.path.shape = r.path.shape) routes renamed ∧
      (Forest.ofRoutes routes).nodeCount = 4 ∧
      (Forest.ofRoutes renamed).nodeCount = (Forest.ofRoutes routes).nodeCount := by
  intro routes renamed
  have hsame : List.Forall₂ (fun r s => s.method = r.method ∧ s.path.shape = r.path.shape)
      routes renamed := .cons ⟨rfl, by decide⟩ (.cons ⟨rfl, by decide⟩ .nil)
  exact ⟨hsame, by decide +kernel, (nodeCount_ofRoutes routes).2.2.2 renamed hsame⟩

end Forest

end Routing
