import Routing.Descent
import Routing.Event
import Routing.Plan.Compile
import Routing.Plan.Run

/-!
# Routers

A router holds the registered routes and two things derived from them: the trees, by which requests
are answered by descent, and a plan compiled from the trees. Both are made when they are asked for
or first needed, and a registration drops both.

Every operation gives the router that it leaves and records what it did.
-/

namespace Routing

/-- The registered routes, with the trees and the plan if they have been made. -/
structure Router (H : Type) where
  registry : Registry H
  forest : Option Forest
  plan : Option Plan

namespace Router

variable {H : Type}

/-- A router that holds routes and has derived nothing from them. -/
def ofRegistry (registry : Registry H) : Router H :=
  ⟨registry, none, none⟩

/-- The router without routes. -/
def empty : Router H :=
  ofRegistry .empty

/-- The registered routes, in order of registration. -/
def routes (router : Router H) : List (Route H) :=
  router.registry.routes

/-! ## Registration -/

/-- Register a definition. Success drops the trees and the plan; a definition that is refused
leaves everything as it was. -/
def register (router : Router H) (d : Definition H) :
    Recorded (Except RoutingError (Route H) × Router H) :=
  match router.registry.register d with
  | .error cause => pure (.error cause, router)
  | .ok (route, registry) => do
    .record (.registering route.method route.path route.id)
    pure (.ok route, ofRegistry registry)

/-- A definition with a known method becomes a route behind the others. -/
theorem register_of_parse_eq_ok (router : Router H) {d : Definition H} {method : Method}
    (h : Method.parse d.method = .ok method) :
    let path := Path.ofText d.path
    router.register d =
      ⟨(.ok (router.registry.nextRoute method path d.handler),
          ofRegistry (router.registry.add method path d.handler)),
        [.registering method path router.routes.length]⟩ := by
  simp only [register, Registry.register, h]
  rfl

/-- A definition with an unknown method is refused, and nothing is recorded. -/
theorem register_of_parse_eq_error (router : Router H) {d : Definition H} {cause : RoutingError}
    (h : Method.parse d.method = .error cause) :
    router.register d = ⟨(.error cause, router), []⟩ := by
  simp only [register, Registry.register, h]
  rfl

/-! ## Derived structures -/

/-- Build a forest from the routes and report its size. -/
def growForest (router : Router H) : Recorded Forest := do
  let forest := Forest.ofRoutes router.routes
  .record (.treesBuilt forest.trees.length router.routes.length forest.nodeCount)
  pure forest

/-- The forest that the router holds, or one built because it holds none. -/
def needForest (router : Router H) : Recorded Forest :=
  match router.forest with
  | some forest => pure forest
  | none => do
    .record .treesMissing
    router.growForest

/-- Compile a forest with the router's routes and report the size of the plan. -/
def makePlan (router : Router H) (forest : Forest) : Recorded Plan := do
  let plan := Plan.compile router.routes forest
  .record (.planCompiled plan.routines.length plan.routineCount)
  pure plan

/-- Build the trees, also when the router holds some already. A plan stays. -/
def rebuildForest (router : Router H) : Recorded (Router H) := do
  let forest ← router.growForest
  pure { router with forest := some forest }

/-- Compile a plan, also when the router holds one already. Trees are built if there are none. -/
def recompilePlan (router : Router H) : Recorded (Router H) := do
  let forest ← router.needForest
  let plan ← router.makePlan forest
  pure { router with forest := some forest, plan := some plan }

/-! ## Requests -/

/-- Answer a request by descent, on trees built first if there are none. -/
def answer (router : Router H) (method url : String) : Recorded (Answer H × Router H) := do
  let forest ← router.needForest
  pure (forest.answer router.routes method url, { router with forest := some forest })

/-- The router with a plan, compiled if it holds none, and that plan. -/
def needPlan (router : Router H) : Recorded (Plan × Router H) :=
  match router.plan with
  | some plan => pure (plan, router)
  | none => do
    .record .planMissing
    let forest ← router.needForest
    let plan ← router.makePlan forest
    pure (plan, { router with forest := some forest, plan := some plan })

/-- Answer a request with the plan, compiled first if there is none. -/
def answerByPlan (router : Router H) (method url : String) :
    Recorded (Answer H × Router H) := do
  let (plan, router) ← router.needPlan
  pure (plan.answer router.routes method url, router)

end Router

end Routing
