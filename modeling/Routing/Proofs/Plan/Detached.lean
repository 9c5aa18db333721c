import Routing.Proofs.Descent.Greedy
import Routing.Proofs.Plan.Execution

/-!
# Plans and routes that do not belong together

A plan is made from trees and from a list of routes, and run with a list of routes. Nothing requires
that the trees and the two lists come from one registry. The trees decide which way a request goes
and which numbers it finds there. The routes that the plan was compiled with decide at which
positions a parameter has its value, and the routes that it is run with give the matches and the
names.

* `Plan.Refused` — why a request is refused.
* `BindsAcross` — which names of a route are bound, and to which pieces.
* `Plan.answer_detached` — the answer to every request.
-/

namespace Routing

variable {G H K : Type}

/-! ## Values that are named elsewhere -/

/-- A name of a route is bound to a piece of the URL. The route with the given number among those
that the plan was compiled with has a parameter, at some index, whose position is one where the
descent went through a wildcard and read this piece. The route that is matched has a parameter with
this name at the same index. -/
def BindsAcross (compiled : List (Route H)) (pieces : List String) (edges : List Edge) (id : Nat)
    (route : Route K) (name value : String) : Prop :=
  ∃ (source : Route H) (index : Nat) (own named : Parameter),
    compiled[id]? = some source ∧ source.parameters[index]? = some own ∧
    edges[own.position]? = some .wildcard ∧ pieces[own.position]? = some value ∧
    route.parameters[index]? = some named ∧ named.name = name

theorem getElem?_parametersOf_eq_some_iff {routes : List (Route H)} {id index : Nat}
    {p : Parameter} :
    (parametersOf routes id)[index]? = some p ↔
      ∃ source, routes[id]? = some source ∧ source.parameters[index]? = some p := by
  rw [parametersOf]
  cases routes[id]? <;> simp

/-- The value at an index is the piece that was captured at the position of the parameter there. -/
theorem mem_valuesAlong_iff {parameters : List Parameter} {node last : Node}
    {pieces : List String} {visits : List Visit} (hnode : node.Labelled)
    (h : node.descend pieces = some (last, visits)) {index : Nat} {value : String} :
    (index, value) ∈ valuesAlong parameters visits ↔
      ∃ p, parameters[index]? = some p ∧ (edgesOf visits)[p.position]? = some .wildcard ∧
        pieces[p.position]? = some value := by
  rw [valuesAlong, List.mem_filterMap]
  constructor
  · rintro ⟨⟨p, i⟩, hp, hvalue⟩
    rcases Option.map_eq_some_iff.1 hvalue with ⟨piece, hpiece, heq⟩
    cases heq
    exact ⟨p, List.mem_zipIdx_iff_getElem?.1 hp, (captured?_eq_some_iff hnode h).1 hpiece⟩
  · rintro ⟨p, hp, hpiece⟩
    refine ⟨(p, index), List.mem_zipIdx_iff_getElem?.2 hp, ?_⟩
    exact Option.map_eq_some_iff.2 ⟨value, (captured?_eq_some_iff hnode h).2 hpiece, rfl⟩

/-- An index has at most one value. -/
theorem nodup_indices_valuesAlong (parameters : List Parameter) (visits : List Visit) :
    ((valuesAlong parameters visits).map Prod.fst).Nodup := by
  have hindices := List.nodup_zipIdx_map_snd parameters
  rw [List.Nodup, List.pairwise_map] at hindices ⊢
  refine hindices.filterMap _ ?_
  intro p q hpq pair hpair other hother
  rcases Option.map_eq_some_iff.1 hpair with ⟨_, -, rfl⟩
  rcases Option.map_eq_some_iff.1 hother with ⟨_, -, rfl⟩
  exact hpq

/-- Two indices of the table of parameters have different names. -/
theorem index_unique (route : Route K) {i j : Nat} {p q : Parameter}
    (hp : route.parameters[i]? = some p) (hq : route.parameters[j]? = some q)
    (hname : p.name = q.name) : i = j := by
  have hnodup : (route.parameters.map (·.name)).Nodup := nodup_names_tableOf _
  have hi : i < (route.parameters.map (·.name)).length := by
    rw [List.length_map]
    exact (List.getElem?_eq_some_iff.1 hp).1
  apply (List.getElem?_inj hi hnodup).1
  rw [List.getElem?_map, List.getElem?_map, hp, hq, Option.map_some, Option.map_some, hname]

namespace Hit

/-- The names of a route, with the values that a hit has at their indices. -/
def named (hit : Hit) (route : Route K) : List (String × String) :=
  hit.values.filterMap fun entry =>
    route.parameters[entry.1]?.map fun parameter => (parameter.name, entry.2)

theorem params_toMatch (hit : Hit) (route : Route K) :
    (hit.toMatch route).params = Params.ofPairs (hit.named route) := rfl

theorem mem_named_iff {hit : Hit} {route : Route K} {name value : String} :
    (name, value) ∈ hit.named route ↔
      ∃ index parameter, (index, value) ∈ hit.values ∧
        route.parameters[index]? = some parameter ∧ parameter.name = name := by
  rw [named, List.mem_filterMap]
  constructor
  · rintro ⟨⟨index, v⟩, hmem, hpair⟩
    rcases Option.map_eq_some_iff.1 hpair with ⟨parameter, hparameter, heq⟩
    cases heq
    exact ⟨index, parameter, hmem, hparameter, rfl⟩
  · rintro ⟨index, parameter, hmem, hparameter, rfl⟩
    exact ⟨(index, value), hmem, Option.map_eq_some_iff.2 ⟨parameter, hparameter, rfl⟩⟩

/-- Different indices have different names, so no value replaces another. -/
theorem nodup_names_named {hit : Hit} (hnodup : (hit.values.map Prod.fst).Nodup)
    (route : Route K) : ((hit.named route).map Prod.fst).Nodup := by
  rw [List.Nodup, List.pairwise_map] at hnodup ⊢
  refine hnodup.filterMap _ ?_
  intro v w hvw pair hpair other hother
  rcases Option.map_eq_some_iff.1 hpair with ⟨p, hp, rfl⟩
  rcases Option.map_eq_some_iff.1 hother with ⟨q, hq, rfl⟩
  intro hname
  exact hvw (index_unique route hp hq hname)

/-- A hit binds the names that its route has at the indices of the values, and no others. -/
theorem getElem?_params_toMatch {hit : Hit} (hnodup : (hit.values.map Prod.fst).Nodup)
    (route : Route K) {name value : String} :
    (hit.toMatch route).params[name]? = some value ↔
      ∃ index parameter, (index, value) ∈ hit.values ∧
        route.parameters[index]? = some parameter ∧ parameter.name = name := by
  rw [params_toMatch, Params.getElem?_ofPairs_of_nodup (nodup_names_named hnodup route),
    mem_named_iff]

end Hit

/-- The match for a number that a descent found. -/
theorem toMatch?_eq_some_iff {compiled : List (Route H)} {run : List (Route K)} {node last : Node}
    {pieces : List String} {visits : List Visit} (hnode : node.Labelled)
    (h : node.descend pieces = some (last, visits)) {id : Nat} {m : Match K}
    (hmatch : (⟨id, valuesAlong (parametersOf compiled id) visits⟩ : Hit).toMatch? run = some m) :
    run[id]? = some m.route ∧ ∀ name value,
      m.params[name]? = some value ↔
        BindsAcross compiled pieces (edgesOf visits) id m.route name value := by
  rcases Option.map_eq_some_iff.1 hmatch with ⟨route, hroute, rfl⟩
  refine ⟨hroute, ?_⟩
  intro name value
  rw [Hit.getElem?_params_toMatch (nodup_indices_valuesAlong _ _) route]
  simp only [mem_valuesAlong_iff hnode h, getElem?_parametersOf_eq_some_iff]
  constructor
  · rintro ⟨index, named, ⟨own, ⟨source, hsource, hown⟩, hedge, hpiece⟩, hnamed, hname⟩
    exact ⟨source, index, own, named, hsource, hown, hedge, hpiece, hnamed, hname⟩
  · rintro ⟨source, index, own, named, hsource, hown, hedge, hpiece, hnamed, hname⟩
    exact ⟨index, named, ⟨own, ⟨source, hsource, hown⟩, hedge, hpiece⟩, hnamed, hname⟩

/-! ## The answer of a plan -/

namespace Plan

/-- Why a plan made from a forest refuses a request when it is run with some routes. -/
inductive Refused (forest : Forest) (run : List (Route K)) (method : String)
    (pieces : List String) : Prop
  /-- No tree belongs to the method. -/
  | noTree (h : ∀ m, m.token = method → forest.tree? m = none)
  /-- The descent does not come to the end of the pieces. -/
  | noDescent (h : ∀ edges last, ¬ forest.Descends method pieces edges last)
  /-- No route ends where the descent ends. -/
  | noRoute {edges : List Edge} {last : Node} (h : forest.Descends method pieces edges last)
      (hnone : last.entry.routes = [])
  /-- A route that ends there is missing; a single one is enough. -/
  | missing {edges : List Edge} {last : Node} {id : Nat}
      (h : forest.Descends method pieces edges last) (hid : id ∈ last.entry.routes)
      (hmissing : ¬ id < run.length)

theorem matches?_eq_none_iff_refused (compiled : List (Route H)) (run : List (Route K))
    {forest : Forest} (hforest : forest.Labelled) (method url : String) :
    (Plan.compile compiled forest).matches? run method url = none ↔
      Refused forest run method (Url.pieces url) := by
  rw [matches?_compile _ _ hforest]
  cases hdescend : forest.descend method url with
  | none =>
    refine iff_of_true rfl (.noDescent ?_)
    intro edges last hlast
    rcases hforest.descends_iff.1 hlast with ⟨visits, hvisits, -⟩
    rw [hdescend] at hvisits
    cases hvisits
  | some found =>
    rcases found with ⟨last, visits⟩
    have hlast : forest.Descends method (Url.pieces url) (edgesOf visits) last :=
      hforest.descends_iff.2 ⟨visits, hdescend, rfl⟩
    have htoMatch : ∀ id : Nat,
        (⟨id, valuesAlong (parametersOf compiled id) visits⟩ : Hit).toMatch? run = none ↔
          ¬ id < run.length := by
      intro id
      rw [Hit.toMatch?, Option.map_eq_none_iff, List.getElem?_eq_none_iff, not_lt]
    simp only [Option.bind_some]
    by_cases hroutes : last.entry.routes = []
    · rw [if_pos hroutes]
      exact iff_of_true rfl (.noRoute hlast hroutes)
    · rw [if_neg hroutes, mapM_eq_none_iff]
      constructor
      · rintro ⟨id, hid, hnone⟩
        exact .missing hlast hid ((htoMatch id).1 hnone)
      · -- there is a descent, and only one, so the cause is a missing route at its end
        intro hrefused
        cases hrefused with
        | noTree h =>
          rcases hlast with ⟨m, root, htoken, htree, -⟩
          rw [h m htoken] at htree
          cases htree
        | noDescent h => exact absurd hlast (h _ _)
        | noRoute h hnone =>
          obtain ⟨-, rfl⟩ := h.unique hlast
          exact absurd hnone hroutes
        | missing h hid hmissing =>
          obtain ⟨-, rfl⟩ := h.unique hlast
          exact ⟨_, hid, (htoMatch _).2 hmissing⟩

/-- The answer of a plan whose trees come from one registry, whose slots come from another, and which
is run with a third. It refuses the request for one of the four causes and for no other. Else the
matches are, number by number, those found at the end of the descent, each with the route that the
third registry has for it and with its names bound across the registries. -/
theorem answer_detached (tree : Registry G) (compiled : Registry H) (run : Registry K)
    (method url : String) :
    ((Plan.compile compiled.routes (.ofRoutes tree.routes)).answer run.routes method url =
        .error (.routeNotFound method url) ↔
      Refused (.ofRoutes tree.routes) run.routes method (Url.pieces url)) ∧
    ((Plan.compile compiled.routes (.ofRoutes tree.routes)).answer run.routes method url =
        .error (.routeNotFound method url) ∨
      ∃ edges last found,
        (Forest.ofRoutes tree.routes).Descends method (Url.pieces url) edges last ∧
        (Plan.compile compiled.routes (.ofRoutes tree.routes)).answer run.routes method url =
          .ok found ∧
        List.Forall₂ (fun id m => run.routes[id]? = some m.route ∧ ∀ name value,
            m.params[name]? = some value ↔
              BindsAcross compiled.routes (Url.pieces url) edges id m.route name value)
          last.entry.routes found) := by
  have hforest := Forest.labelled_ofRoutes tree.routes
  have hnone := matches?_eq_none_iff_refused compiled.routes run.routes hforest method url
  have hcompile := matches?_compile compiled.routes run.routes hforest method url
  rw [answer]
  cases hmatches : (Plan.compile compiled.routes (.ofRoutes tree.routes)).matches? run.routes
      method url with
  | none => exact ⟨iff_of_true rfl (hnone.1 hmatches), Or.inl rfl⟩
  | some found =>
    have hallowed : ¬ Refused (.ofRoutes tree.routes) run.routes method (Url.pieces url) := by
      rw [← hnone, hmatches]
      exact Option.some_ne_none found
    refine ⟨iff_of_false (by simp [Answer.ofMatches]) hallowed, Or.inr ?_⟩
    rw [hmatches] at hcompile
    rcases Option.bind_eq_some_iff.1 hcompile.symm with ⟨⟨last, visits⟩, hdescend, hfound⟩
    dsimp only at hfound
    by_cases hroutes : last.entry.routes = []
    · rw [if_pos hroutes] at hfound
      cases hfound
    · rw [if_neg hroutes, mapM_eq_some_iff] at hfound
      rcases Option.bind_eq_some_iff.1 hdescend with ⟨root, hroot, hdescend'⟩
      rcases Option.bind_eq_some_iff.1 hroot with ⟨m, -, htree⟩
      refine ⟨edgesOf visits, last, found, hforest.descends_iff.2 ⟨visits, hdescend, rfl⟩, rfl, ?_⟩
      refine hfound.imp ?_
      intro id result hmatch
      exact toMatch?_eq_some_iff (hforest m root htree) hdescend' hmatch

end Plan

end Routing
