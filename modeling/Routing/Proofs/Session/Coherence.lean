import Mathlib
import Routing.Session

/-!
# Sessions and derived structures

A router may hold trees and a plan. Whatever was done before, they are those of the routes that the
router holds now, so nothing but these routes has an influence on any reply.

* `Router.Coherent` — the invariant: what is held is what would be made now.
* `Router.coherent_step` — one operation keeps it, and replies from the routes alone.
* `Router.session_coherent` — the invariant after every session, and what follows from it: requests
  are answered as by a fresh router, and operations that leave the routes as they are can be put
  into a session or left out of it.
-/

namespace Routing

variable {H : Type}

/-! ## Sessions -/

namespace Router

/-- The router after a session that began with an empty one. -/
def after (operations : List (Operation H)) : Router H :=
  (empty.run operations).value.2

/-- The replies to the operations of a session that began with an empty router. -/
def replies (operations : List (Operation H)) : List (Reply H) :=
  (empty.run operations).value.1

end Router

/-- An operation that leaves the routes as they are: all but a new start and the registration of a
method that is known. -/
def Operation.isIdle : Operation H → Bool
  | .reset => false
  | .register d =>
    match Method.parse d.method with
    | .ok _ => false
    | .error _ => true
  | .rebuildForest | .recompilePlan | .answer _ _ | .answerByPlan _ _ => true

/-! ## What the routes alone say -/

namespace Registry

/-- The reply to an operation, read off the routes. -/
def reply (registry : Registry H) : Operation H → Reply H
  | .reset | .rebuildForest | .recompilePlan => .done
  | .register d =>
    match Method.parse d.method with
    | .ok method => .registered (.ok (registry.nextRoute method (Path.ofText d.path) d.handler))
    | .error cause => .registered (.error cause)
  | .answer method url =>
    .answered ((Forest.ofRoutes registry.routes).answer registry.routes method url)
  | .answerByPlan method url =>
    .answered ((Plan.compile registry.routes (.ofRoutes registry.routes)).answer registry.routes
      method url)

/-- The routes after an operation. -/
def next (registry : Registry H) : Operation H → Registry H
  | .reset => .empty
  | .register d =>
    match Method.parse d.method with
    | .ok method => registry.add method (Path.ofText d.path) d.handler
    | .error _ => registry
  | .rebuildForest | .recompilePlan | .answer _ _ | .answerByPlan _ _ => registry

/-- The replies to operations, read off the routes. -/
def repliesTo (registry : Registry H) : List (Operation H) → List (Reply H)
  | [] => []
  | operation :: operations =>
    registry.reply operation :: (registry.next operation).repliesTo operations

theorem next_of_isIdle (registry : Registry H) {operation : Operation H}
    (h : operation.isIdle = true) : registry.next operation = registry := by
  cases operation with
  | reset => cases h
  | register d =>
    rw [Operation.isIdle] at h
    rw [next]
    cases hmethod : Method.parse d.method with
    | ok method => simp [hmethod] at h
    | error cause => rfl
  | rebuildForest => rfl
  | recompilePlan => rfl
  | answer method url => rfl
  | answerByPlan method url => rfl

end Registry

namespace Router

/-! ## The invariant -/

/-- What a router holds is what would be made from its routes now, and there is no plan without the
trees that it was compiled from. -/
structure Coherent (router : Router H) : Prop where
  forest : ∀ forest, router.forest = some forest → forest = .ofRoutes router.routes
  plan : ∀ plan, router.plan = some plan →
    plan = .compile router.routes (.ofRoutes router.routes)
  forest_of_plan : router.plan.isSome → router.forest.isSome

theorem coherent_ofRegistry (registry : Registry H) : (ofRegistry registry).Coherent := by
  constructor
  · intro forest hforest
    cases hforest
  · intro plan hplan
    cases hplan
  · intro hplan
    cases hplan

/-- A router with the trees of its routes. -/
theorem coherent_withForest {router : Router H} (h : router.Coherent) :
    { router with forest := some (.ofRoutes router.routes) : Router H }.Coherent := by
  constructor
  · intro forest hforest
    exact (Option.some.inj hforest).symm
  · exact h.plan
  · intro _
    rfl

/-- A router with the trees and the plan of its routes. -/
theorem coherent_withPlan (router : Router H) :
    { router with
      forest := some (.ofRoutes router.routes)
      plan := some (.compile router.routes (.ofRoutes router.routes)) : Router H }.Coherent := by
  constructor
  · intro forest hforest
    exact (Option.some.inj hforest).symm
  · intro plan hplan
    exact (Option.some.inj hplan).symm
  · intro _
    rfl

/-! ## Making what is missing -/

theorem value_needForest {router : Router H} (h : router.Coherent) :
    router.needForest.value = .ofRoutes router.routes := by
  rw [needForest]
  cases hforest : router.forest with
  | none => rfl
  | some forest => exact h.forest forest hforest

/-- Asking for the plan gives that of the routes, and leaves a coherent router with these routes. -/
theorem value_needPlan {router : Router H} (h : router.Coherent) :
    router.needPlan.value.1 = .compile router.routes (.ofRoutes router.routes) ∧
      router.needPlan.value.2.registry = router.registry ∧ router.needPlan.value.2.Coherent := by
  rw [needPlan]
  cases hplan : router.plan with
  | some plan => exact ⟨h.plan plan hplan, rfl, h⟩
  | none =>
    have hforest := value_needForest h
    refine ⟨?_, rfl, ?_⟩
    · simp [makePlan, hforest]
    · simpa [makePlan, hforest] using coherent_withPlan router

/-! ## One operation -/

/-- An operation on a coherent router replies from the routes alone, leaves the routes that it would
leave without trees and plan, and keeps the router coherent. -/
theorem coherent_step {router : Router H} (h : router.Coherent) (operation : Operation H) :
    (router.step operation).value.1 = router.registry.reply operation ∧
      (router.step operation).value.2.registry = router.registry.next operation ∧
      (router.step operation).value.2.Coherent := by
  cases operation with
  | reset => exact ⟨rfl, rfl, coherent_ofRegistry .empty⟩
  | register d =>
    simp only [step, Registry.reply, Registry.next]
    cases hmethod : Method.parse d.method with
    | error cause =>
      rw [router.register_of_parse_eq_error hmethod]
      exact ⟨rfl, rfl, h⟩
    | ok method =>
      rw [router.register_of_parse_eq_ok hmethod]
      exact ⟨rfl, rfl, coherent_ofRegistry _⟩
  | rebuildForest => exact ⟨rfl, rfl, coherent_withForest h⟩
  | recompilePlan =>
    refine ⟨rfl, rfl, ?_⟩
    simpa [step, recompilePlan, makePlan, value_needForest h] using coherent_withPlan router
  | answer method url =>
    refine ⟨?_, rfl, ?_⟩
    · simp [step, answer, value_needForest h, Registry.reply, routes]
    · simpa [step, answer, value_needForest h] using coherent_withForest h
  | answerByPlan method url =>
    rcases value_needPlan h with ⟨hplan, hregistry, hcoherent⟩
    refine ⟨?_, hregistry, hcoherent⟩
    simp [step, answerByPlan, hplan, hregistry, Registry.reply, routes]

/-! ## Whole sessions -/

/-- A session on a coherent router leaves it coherent, and is answered from the routes alone. -/
theorem coherent_run {router : Router H} (h : router.Coherent) (operations : List (Operation H)) :
    (router.run operations).value.1 = router.registry.repliesTo operations ∧
      (router.run operations).value.2.Coherent := by
  induction operations generalizing router with
  | nil => exact ⟨rfl, h⟩
  | cons operation operations ih =>
    rcases coherent_step h operation with ⟨hreply, hregistry, hcoherent⟩
    rcases ih hcoherent with ⟨hreplies, hlast⟩
    refine ⟨?_, hlast⟩
    simp only [run, Recorded.value_bind, Recorded.value_pure]
    rw [hreplies, hreply, hregistry, Registry.repliesTo]

/-- The routes after a session are those that its operations leave one after the other. -/
theorem registry_run {router : Router H} (h : router.Coherent) (operations : List (Operation H)) :
    (router.run operations).value.2.registry = operations.foldl Registry.next router.registry := by
  induction operations generalizing router with
  | nil => rfl
  | cons operation operations ih =>
    rcases coherent_step h operation with ⟨-, hregistry, hcoherent⟩
    have hrest := ih hcoherent
    rw [hregistry] at hrest
    exact hrest

theorem coherent_after (operations : List (Operation H)) : (after operations).Coherent :=
  (coherent_run (coherent_ofRegistry .empty) operations).2

theorem registry_after (operations : List (Operation H)) :
    (after operations).registry = operations.foldl Registry.next .empty :=
  registry_run (coherent_ofRegistry .empty) operations

theorem replies_eq (operations : List (Operation H)) :
    replies operations = Registry.repliesTo .empty operations :=
  (coherent_run (coherent_ofRegistry .empty) operations).1

/-- A coherent router answers a request by descent from its routes alone. -/
theorem value_answer {router : Router H} (h : router.Coherent) (method url : String) :
    (router.answer method url).value.1 =
      (Forest.ofRoutes router.routes).answer router.routes method url := by
  simp [answer, value_needForest h]

/-- A coherent router answers a request by plan from its routes alone. -/
theorem value_answerByPlan {router : Router H} (h : router.Coherent) (method url : String) :
    (router.answerByPlan method url).value.1 =
      (Plan.compile router.routes (.ofRoutes router.routes)).answer router.routes method url := by
  rcases value_needPlan h with ⟨hplan, hregistry, -⟩
  simp [answerByPlan, hplan, hregistry, routes]

end Router

/-! ## Idle operations -/

/-- The items that are not marked. -/
def unmarked {α : Type} (items : List (α × Bool)) : List α :=
  (items.filter fun item => !item.2).map Prod.fst

/-- Leaving out idle operations leaves the replies to the others as they are. -/
theorem Registry.repliesTo_unmarked (registry : Registry H)
    (steps : List (Operation H × Bool)) (hidle : ∀ step ∈ steps, step.2 = true → step.1.isIdle) :
    registry.repliesTo (unmarked steps) =
      unmarked ((registry.repliesTo (steps.map Prod.fst)).zip (steps.map Prod.snd)) := by
  induction steps generalizing registry with
  | nil => rfl
  | cons step steps ih =>
    rcases step with ⟨operation, marked⟩
    have hrest := fun registry : Registry H =>
      ih registry fun s hs => hidle s (List.mem_cons_of_mem _ hs)
    cases marked with
    | false => exact congrArg (registry.reply operation :: ·) (hrest _)
    | true =>
      -- the routes stay as they are, so the operations behind do not notice this one
      have hnext := registry.next_of_isIdle (hidle _ List.mem_cons_self rfl)
      show registry.repliesTo (unmarked steps) = unmarked
        (((registry.next operation).repliesTo (steps.map Prod.fst)).zip (steps.map Prod.snd))
      rw [hnext]
      exact hrest registry

/-- After every session the router holds what would be made from its routes now. So it answers every
request as a fresh router with these routes does, and idle operations, wherever they stand in a
session, have no influence on the replies to the others. -/
theorem Router.session_coherent (operations : List (Operation H)) :
    (after operations).Coherent ∧
      (∀ method url,
        ((after operations).answer method url).value.1 =
            ((ofRegistry (after operations).registry).answer method url).value.1 ∧
          ((after operations).answerByPlan method url).value.1 =
            ((ofRegistry (after operations).registry).answerByPlan method url).value.1) ∧
      ∀ steps : List (Operation H × Bool), steps.map Prod.fst = operations →
        (∀ step ∈ steps, step.2 = true → step.1.isIdle) →
        replies (unmarked steps) = unmarked ((replies operations).zip (steps.map Prod.snd)) := by
  have hafter := coherent_after operations
  have hfresh := coherent_ofRegistry (after operations).registry
  refine ⟨hafter, ?_, ?_⟩
  · intro method url
    rw [value_answer hafter, value_answer hfresh, value_answerByPlan hafter,
      value_answerByPlan hfresh]
    exact ⟨rfl, rfl⟩
  · rintro steps rfl hidle
    rw [replies_eq, replies_eq]
    exact Registry.repliesTo_unmarked .empty steps hidle

end Routing
