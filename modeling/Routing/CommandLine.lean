import Routing.Router
import Routing.Text.Blank

/-!
# The command line

One run registers the given definitions, lists the trees if asked to, and answers one request.

* `Command` — what is asked for.
* `Outcome` — the exit status and what is written to the two output streams.
* `Command.run` — registers the definitions and answers the request.
* `Command.outcome` — what a run gives, with the log of its events.

Nothing is written to standard output before every definition has been registered.
-/

namespace Routing

/-- What is asked of one run. -/
structure Command where
  definitions : List String
  method : String
  url : String
  /-- Answer with a plan, not by descent. -/
  compiled : Bool
  /-- List all trees before the request is answered. -/
  listTrees : Bool
  /-- Write the events of the run to standard error. -/
  verbose : Bool := false
deriving DecidableEq, Repr

/-- What one run gives. -/
structure Outcome where
  exitCode : Nat
  stdout : String
  stderr : String
deriving DecidableEq, Repr

/-- Why a definition stops the run. -/
inductive DefinitionFault where
  /-- There is no white space between a method and a path. -/
  | incomplete (definition : String)
  | refused (definition : String) (cause : RoutingError)
deriving DecidableEq, Repr

namespace DefinitionFault

/-- The fault in words. -/
def message : DefinitionFault → String
  | .incomplete definition =>
    "invalid route " ++ Text.quote definition ++ ", expected \"<METHOD> <PATH>\""
  | .refused definition cause =>
    "registering " ++ Text.quote definition ++ "\n\nCaused by:\n    " ++ cause.message

end DefinitionFault

/-! ## Definitions -/

/-- The method and the path of a definition: what stands before and behind the first white space,
white space at both ends aside. -/
def splitDefinition (definition : String) : Option (String × String) :=
  let cs := Text.trim definition.toList
  match cs.dropWhile (!Text.isBlank ·) with
  | [] => none
  | _ :: path => some (String.ofList (cs.takeWhile (!Text.isBlank ·)), String.ofList path)

/-- Register one definition. -/
def Router.registerText (router : Router Unit) (definition : String) :
    Recorded (Except DefinitionFault (Router Unit)) :=
  match splitDefinition definition with
  | none => pure (.error (.incomplete definition))
  | some (method, path) => do
    let (outcome, router) ← router.register ⟨method, path, ()⟩
    match outcome with
    | .ok _ => pure (.ok router)
    | .error cause => pure (.error (.refused definition cause))

/-- Register definitions in order, up to the first that cannot be. -/
def Router.registerTexts (router : Router Unit) :
    List String → Recorded (Except DefinitionFault (Router Unit))
  | [] => pure (.ok router)
  | definition :: definitions => do
    match ← router.registerText definition with
    | .ok router => router.registerTexts definitions
    | .error fault => pure (.error fault)

/-! ## Output -/

/-- The texts `name=value` of a match, in ascending order of the whole texts. -/
def bindingTexts (bindings : List (String × String)) : List String :=
  (bindings.map fun (name, value) => name ++ "=" ++ value).mergeSort (· ≤ ·)

/-- The line that reports a route and the values of its parameters. -/
def reportLine {H : Type} (route : Route H) (bindings : List (String × String)) : String :=
  "#" ++ toString route.id ++ " " ++ route.method.token ++ " " ++ route.path.text ++ " \x7b" ++
    ", ".intercalate (bindingTexts bindings) ++ "\x7d\n"

/-- The line that reports a match. -/
def Match.line {H : Type} (m : Match H) : String :=
  reportLine m.route m.params.toList

namespace Outcome

/-- A run that ends with an error, after something may have been written. -/
def failure (written message : String) : Outcome :=
  ⟨1, written, "Error: " ++ message ++ "\n"⟩

/-- A run that ends with the answer to its request. -/
def ofAnswer {H : Type} (written : String) : Answer H → Outcome
  | .ok ms => ⟨0, written ++ String.join (ms.map Match.line), ""⟩
  | .error e => failure written e.message

end Outcome

/-! ## Carrying out a command -/

namespace Command

/-- List the trees if asked to, and answer the request of the command. -/
def answerWith (command : Command) (router : Router Unit) : Recorded Outcome := do
  let router ← router.rebuildForest
  let listing :=
    if command.listTrees then (router.forest.map Forest.listing).getD "" else ""
  let (answer, _) ←
    if command.compiled then router.answerByPlan command.method command.url
    else router.answer command.method command.url
  pure (.ofAnswer listing answer)

/-- Register the definitions and answer the request. What comes of it is recorded with the events
on the way to it, which are still to be written. -/
def run (command : Command) : Recorded Outcome := do
  match ← Router.empty.registerTexts command.definitions with
  | .ok router => command.answerWith router
  | .error fault => pure (.failure "" fault.message)

/-- The level from which on events are written. -/
def leastLevel (command : Command) : Level :=
  if command.verbose then .debug else .warn

/-- The text of recorded events, as far as the command asks for them. -/
def log (command : Command) (write : EventWriter) (events : List Event) : String :=
  write.log command.leastLevel events

/-- Carry out a command. Events are written to standard error when they happen, so their text stands
there before the error with which the run may end. -/
def outcome (command : Command) (write : EventWriter := .plain) : Recorded Outcome :=
  let run := command.run
  ⟨{ run.value with stderr := command.log write run.events ++ run.value.stderr }, run.events⟩

/-- All events are written with `verbose`, and none without it. -/
theorem log_eq (command : Command) (write : EventWriter) (events : List Event) :
    command.log write events =
      if command.verbose then String.join (events.mapIdx write) else "" := by
  rw [log, leastLevel]
  cases command.verbose with
  | true => exact write.log_debug events
  | false => exact write.log_warn events

end Command

end Routing
