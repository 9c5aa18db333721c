import Routing.Router

/-!
# Sessions

A session is a sequence of operations on a router. `step` carries out one operation, `run` all of
them in order.
-/

namespace Routing

/-- What can be asked of a router. -/
inductive Operation (H : Type) where
  /-- Start again with an empty router. -/
  | reset
  | register (d : Definition H)
  | rebuildForest
  | recompilePlan
  | answer (method url : String)
  | answerByPlan (method url : String)

/-- What an operation gives back. -/
inductive Reply (H : Type) where
  | done
  | registered (outcome : Except RoutingError (Route H))
  | answered (answer : Answer H)

namespace Router

variable {H : Type}

/-- Carry out one operation. -/
def step (router : Router H) : Operation H → Recorded (Reply H × Router H)
  | .reset => pure (.done, .empty)
  | .register d => do
    let (outcome, router) ← router.register d
    pure (.registered outcome, router)
  | .rebuildForest => do
    pure (.done, ← router.rebuildForest)
  | .recompilePlan => do
    pure (.done, ← router.recompilePlan)
  | .answer method url => do
    let (answer, router) ← router.answer method url
    pure (.answered answer, router)
  | .answerByPlan method url => do
    let (answer, router) ← router.answerByPlan method url
    pure (.answered answer, router)

/-- Carry out operations in order, with the reply to each. -/
def run (router : Router H) : List (Operation H) → Recorded (List (Reply H) × Router H)
  | [] => pure ([], router)
  | operation :: operations => do
    let (reply, router) ← router.step operation
    let (replies, router) ← router.run operations
    pure (reply :: replies, router)

end Router

end Routing
