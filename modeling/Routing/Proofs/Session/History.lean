import Routing.Proofs.Session.Coherence

/-!
# Sessions and their histories

Whoever runs a session can keep a history of it: the definitions that were registered with success,
each with the route that came back, from the last new start on. The router has these routes and no
others, so a route is never changed, dropped or moved, and its number says how many came before it.

* `History.enter` — the history after one more operation, from the operation and its reply.
* `Registry.Records` — the invariant: the routes are those of the history.
* `Registry.isPrefix_next` — one operation adds behind the routes, or leaves them as they are.
* `Registry.registerAll_eq_ok_iff`, `Registry.registerAll_eq_error_iff` — registering definitions at
  once is registering them one after the other, up to the first that is refused.
* `Router.records_after` — the invariant holds in every session.
* `Router.registry_append_only` — what follows for every session, and what a registration does
  behind it when its method is known, and when it is not.
-/

namespace Routing

variable {H : Type}

/-! ## Known methods -/

theorem Method.ofToken?_eq_none_iff {token : String} :
    ofToken? token = none ↔ ∀ method : Method, method.token ≠ token := by
  simp only [Option.eq_none_iff_forall_ne_some, ne_eq, ofToken?_eq_some_iff]

/-- A registration finds no method when neither its text nor the upper case of it is a token. -/
theorem Method.or_ofToken?_eq_none_iff {raw : String} :
    (ofToken? raw).or (ofToken? (Text.uppercase raw)) = none ↔
      ∀ method : Method, method.token ≠ raw ∧ method.token ≠ Text.uppercase raw := by
  rw [Option.or_eq_none_iff, ofToken?_eq_none_iff, ofToken?_eq_none_iff, forall_and]

theorem Method.parse_eq_error {raw : String}
    (h : ∀ method : Method, method.token ≠ raw ∧ method.token ≠ Text.uppercase raw) :
    parse raw = .error (.unsupportedMethod raw) := by
  rw [parse, or_ofToken?_eq_none_iff.2 h]

theorem Method.exists_parse_eq_ok {raw : String}
    (h : ∃ method : Method, method.token = raw ∨ method.token = Text.uppercase raw) :
    ∃ method, parse raw = .ok method := by
  rw [parse]
  cases hfound : (ofToken? raw).or (ofToken? (Text.uppercase raw)) with
  | some method => exact ⟨method, rfl⟩
  | none =>
    rcases h with ⟨method, htoken⟩
    have hno := or_ofToken?_eq_none_iff.1 hfound method
    exact absurd htoken (not_or.2 hno)

/-! ## Histories -/

/-- What a session has registered: the definitions, each with the route that came back. -/
abbrev History (H : Type) := List (Definition H × Route H)

/-- The history after one more operation. A new start forgets it, a registration that gives back a
route is written behind it, and all else is passed over. -/
def History.enter (history : History H) : Operation H × Reply H → History H
  | (.reset, _) => []
  | (.register d, .registered (.ok route)) => history ++ [(d, route)]
  | _ => history

/-- The route is what a definition becomes when it is registered behind `place` others. -/
structure Route.Registers (route : Route H) (d : Definition H) (place : Nat) : Prop where
  id : route.id = place
  method : Method.parse d.method = .ok route.method
  path : route.path = Path.ofText d.path
  handler : route.handler = d.handler
  parameters : route.parameters = (Path.ofText d.path).parameters

namespace Registry

theorem registers_nextRoute (registry : Registry H) {d : Definition H} {method : Method}
    (h : Method.parse d.method = .ok method) :
    (registry.nextRoute method (Path.ofText d.path) d.handler).Registers d
      registry.routes.length :=
  ⟨rfl, h, rfl, rfl, rfl⟩

/-! ## One operation -/

/-- The routes are those of the history, and each is what its definition becomes at its place. -/
structure Records (registry : Registry H) (history : History H) : Prop where
  routes : registry.routes = history.map Prod.snd
  registers : ∀ (place : Nat) (d : Definition H) (route : Route H),
    history[place]? = some (d, route) → route.Registers d place

theorem records_empty : (empty : Registry H).Records [] := by
  constructor
  · rfl
  · intro place d route hentry
    cases hentry

/-- A registration with a known method is a new entry behind the others. -/
theorem Records.add {registry : Registry H} {history : History H} (h : registry.Records history)
    {d : Definition H} {method : Method} (hmethod : Method.parse d.method = .ok method) :
    (registry.add method (Path.ofText d.path) d.handler).Records
      (history ++ [(d, registry.nextRoute method (Path.ofText d.path) d.handler)]) := by
  have hlen : registry.routes.length = history.length := by
    rw [h.routes, List.length_map]
  constructor
  · show registry.routes ++ _ = _
    rw [h.routes, List.map_append]
    rfl
  · intro place e route hentry
    rcases Nat.lt_trichotomy place history.length with hold | hnew | hbeyond
    · rw [List.getElem?_append_left hold] at hentry
      exact h.registers place e route hentry
    · subst hnew
      rw [List.getElem?_concat_length, Option.some.injEq, Prod.mk.injEq] at hentry
      rw [← hentry.1, ← hentry.2, ← hlen]
      exact registry.registers_nextRoute hmethod
    · have hnone : (history ++ [(d, registry.nextRoute method (Path.ofText d.path)
          d.handler)])[place]? = none :=
        List.getElem?_eq_none (by simp; omega)
      rw [hnone] at hentry
      cases hentry

/-- One operation takes the routes and the history along together. -/
theorem Records.next {registry : Registry H} {history : History H} (h : registry.Records history)
    (operation : Operation H) :
    (registry.next operation).Records (history.enter (operation, registry.reply operation)) := by
  cases operation with
  | reset => exact records_empty
  | register d =>
    rw [Registry.next, Registry.reply]
    cases hmethod : Method.parse d.method with
    | ok method => exact h.add hmethod
    | error cause => exact h
  | rebuildForest => exact h
  | recompilePlan => exact h
  | answer method url => exact h
  | answerByPlan method url => exact h

/-- An operation other than a new start adds behind the routes, or leaves them as they are. -/
theorem isPrefix_next (registry : Registry H) {operation : Operation H}
    (h : operation ≠ .reset) : registry.routes <+: (registry.next operation).routes := by
  cases operation with
  | reset => exact absurd rfl h
  | register d =>
    rw [Registry.next]
    cases Method.parse d.method with
    | ok method => exact List.prefix_append _ _
    | error cause => exact List.prefix_rfl
  | rebuildForest => exact List.prefix_rfl
  | recompilePlan => exact List.prefix_rfl
  | answer method url => exact List.prefix_rfl
  | answerByPlan method url => exact List.prefix_rfl

/-! ## Many definitions -/

/-- Definitions can be registered at once when their methods are known, and leave the routes that
they leave when they are registered one after the other. -/
theorem registerAll_eq_ok_iff {registry added : Registry H} {ds : List (Definition H)} :
    registry.registerAll ds = .ok added ↔
      (∀ d ∈ ds, ∃ method, Method.parse d.method = .ok method) ∧
        (ds.map Operation.register).foldl Registry.next registry = added := by
  induction ds generalizing registry with
  | nil => simp [registerAll]
  | cons d ds ih =>
    rw [registerAll, register, List.map_cons, List.foldl_cons, next, List.forall_mem_cons]
    cases hmethod : Method.parse d.method with
    | ok method => simp [ih]
    | error cause => simp

/-- A definition whose method is not known is refused behind others whose methods are, and the refusal
counts the routes that are there by then. -/
theorem registerAll_of_refused (registry : Registry H) {front : List (Definition H)}
    (hfront : ∀ d ∈ front, ∃ method, Method.parse d.method = .ok method) {d : Definition H}
    {cause : RoutingError} (hbad : Method.parse d.method = .error cause)
    (back : List (Definition H)) :
    registry.registerAll (front ++ d :: back) =
      .error ⟨registry.routes.length + front.length, cause⟩ := by
  induction front generalizing registry with
  | nil =>
    rw [List.nil_append, registerAll, register, hbad]
    rfl
  | cons e front ih =>
    rw [List.forall_mem_cons] at hfront
    rcases hfront.1 with ⟨method, hmethod⟩
    have hlen : (registry.add method (Path.ofText e.path) e.handler).routes.length =
        registry.routes.length + 1 := by
      simp [add]
    rw [List.cons_append, registerAll, register, hmethod]
    simp only
    rw [ih _ hfront.2, hlen, List.length_cons, Nat.add_right_comm, Nat.add_assoc]

/-- The refusal of a list of definitions is about the first whose method is not known. -/
theorem registerAll_eq_error_iff {registry : Registry H} {ds : List (Definition H)}
    {refusal : Refusal} :
    registry.registerAll ds = .error refusal ↔
      ∃ front d back, ds = front ++ d :: back ∧
        (∀ e ∈ front, ∃ method, Method.parse e.method = .ok method) ∧
        Method.parse d.method = .error refusal.cause ∧
        refusal.index = registry.routes.length + front.length := by
  constructor
  · intro h
    induction ds generalizing registry with
    | nil => cases h
    | cons d ds ih =>
      rw [registerAll, register] at h
      cases hmethod : Method.parse d.method with
      | error cause =>
        rw [hmethod] at h
        cases h
        exact ⟨[], d, ds, rfl, by simp, hmethod, rfl⟩
      | ok method =>
        rw [hmethod] at h
        rcases ih h with ⟨front, e, back, rfl, hfront, hbad, hindex⟩
        refine ⟨d :: front, e, back, rfl, ?_, hbad, ?_⟩
        · exact List.forall_mem_cons.2 ⟨⟨method, hmethod⟩, hfront⟩
        · rw [hindex, List.length_cons, add, List.length_append, List.length_singleton]
          omega
  · rintro ⟨front, d, back, rfl, hfront, hbad, hindex⟩
    rw [registry.registerAll_of_refused hfront hbad back, ← hindex]

/-! ## Whole sessions -/

theorem Records.foldl_next {registry : Registry H} {history : History H}
    (h : registry.Records history) (operations : List (Operation H)) :
    (operations.foldl Registry.next registry).Records
      ((operations.zip (registry.repliesTo operations)).foldl History.enter history) := by
  induction operations generalizing registry history with
  | nil => exact h
  | cons operation operations ih => exact ih (h.next operation)

theorem isPrefix_foldl_next (registry : Registry H) {operations : List (Operation H)}
    (h : .reset ∉ operations) :
    registry.routes <+: (operations.foldl Registry.next registry).routes := by
  induction operations generalizing registry with
  | nil => exact List.prefix_rfl
  | cons operation operations ih =>
    rw [List.mem_cons, not_or] at h
    have hfirst := registry.isPrefix_next (Ne.symm h.1)
    exact hfirst.trans (ih (registry.next operation) h.2)

end Registry

namespace Router

/-- The history of a session that began with an empty router. -/
def history (operations : List (Operation H)) : History H :=
  (operations.zip (replies operations)).foldl History.enter []

/-- The invariant of a session: the routes are those of its history. -/
theorem records_after (operations : List (Operation H)) :
    (after operations).registry.Records (history operations) := by
  rw [registry_after, history, replies_eq]
  exact Registry.records_empty.foldl_next operations

/-- A session that registers definitions one after the other leaves the registry of all of them, if
they have one. -/
theorem registry_after_of_ofDefinitions {ds : List (Definition H)} {registry : Registry H}
    (h : Registry.ofDefinitions ds = .ok registry) :
    (after (ds.map .register)).registry = registry := by
  rw [registry_after]
  exact (Registry.registerAll_eq_ok_iff.1 h).2

/-- After every session the routes are those that successful registrations gave back, in order, the
one at a place with the number of the place and all else from its definition. What comes behind
leaves these routes where they are, until a new start. A registration whose method has no token is
refused with the text that it gave; it changes nothing and reports nothing. Every other one puts a
route behind the others and drops the trees and the plan. -/
theorem registry_append_only (operations : List (Operation H)) :
    let router := after operations
    router.registry.Records (history operations) ∧
      (∀ more : List (Operation H), .reset ∉ more →
        router.routes <+: (after (operations ++ more)).routes) ∧
      (∀ d : Definition H,
        (∀ method : Method, method.token ≠ d.method ∧ method.token ≠ Text.uppercase d.method) →
        router.register d = ⟨(.error (.unsupportedMethod d.method), router), []⟩) ∧
      ∀ d : Definition H,
        (∃ method : Method, method.token = d.method ∨ method.token = Text.uppercase d.method) →
        ∃ route : Route H, (router.register d).value.1 = .ok route ∧
          route.Registers d router.routes.length ∧
          (router.register d).value.2.routes = router.routes ++ [route] ∧
          (router.register d).value.2.forest = none ∧
          (router.register d).value.2.plan = none := by
  intro router
  refine ⟨records_after operations, ?_, ?_, ?_⟩
  · intro more hmore
    show (after operations).registry.routes <+: (after (operations ++ more)).registry.routes
    rw [registry_after, registry_after, List.foldl_append]
    exact Registry.isPrefix_foldl_next _ hmore
  · intro d hunknown
    exact router.register_of_parse_eq_error (Method.parse_eq_error hunknown)
  · intro d hknown
    rcases Method.exists_parse_eq_ok hknown with ⟨method, hmethod⟩
    rw [router.register_of_parse_eq_ok hmethod]
    exact ⟨_, rfl, router.registry.registers_nextRoute hmethod, rfl, rfl, rfl⟩

end Router

end Routing
