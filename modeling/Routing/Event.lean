import Routing.Method
import Routing.Path

/-!
# Events

A router reports what it does. Events are values, recorded in the order in which they happen.

* `Event` — what is reported, with its level, its message and its fields.
* `Level.reaches` — whether an event of some level is to be written.
* `EventWriter` — how events are written, and `EventWriter.log`, the text of several events.
* `Recorded α` — a result together with the events on the way to it.
-/

namespace Routing

/-- Something that a router reports. -/
inductive Event where
  /-- A route is about to be entered under a number. -/
  | registering (method : Method) (path : Path) (id : Nat)
  /-- Trees are needed and have not been built. -/
  | treesMissing
  /-- Trees were built: their number, the number of routes and the number of nodes. -/
  | treesBuilt (trees routes nodes : Nat)
  /-- A plan is needed and has not been compiled. -/
  | planMissing
  /-- A plan was compiled: the number of its methods and of its routines. -/
  | planCompiled (methods routines : Nat)
deriving DecidableEq

/-- How much attention an event asks for, from little to much. -/
inductive Level where
  | debug
  | info
  | warn
deriving DecidableEq, Repr

namespace Level

/-- The name of the level. -/
def name : Level → String
  | .debug => "DEBUG"
  | .info => "INFO"
  | .warn => "WARN"

/-- The place of the level among all levels. -/
def rank : Level → Nat
  | .debug => 0
  | .info => 1
  | .warn => 2

/-- The level asks for as much attention as another one, or for more. -/
def reaches (level least : Level) : Bool :=
  least.rank ≤ level.rank

theorem reaches_debug (level : Level) : level.reaches .debug = true := by
  cases level <;> rfl

end Level

/-- The value of a field of an event. -/
inductive FieldValue where
  | text (value : String)
  | number (value : Nat)
deriving DecidableEq, Repr

/-- The value as it is written. -/
def FieldValue.render : FieldValue → String
  | .text value => value
  | .number value => toString value

namespace Event

/-- The level of the event. -/
def level : Event → Level
  | .registering .. | .treesMissing | .planMissing => .debug
  | .treesBuilt .. | .planCompiled .. => .info

/-- What the event says happened. -/
def message : Event → String
  | .registering .. => "register route"
  | .treesMissing => "building route trees on demand"
  | .treesBuilt .. => "built route trees"
  | .planMissing => "compiling matcher on demand"
  | .planCompiled .. => "compiled matcher"

/-- The details of the event, by name. -/
def fields : Event → List (String × FieldValue)
  | .registering method path id =>
    [("method", .text method.token), ("path", .text path.text), ("id", .number id)]
  | .treesBuilt trees routes nodes =>
    [("trees", .number trees), ("routes", .number routes), ("nodes", .number nodes)]
  | .planCompiled methods routines =>
    [("methods", .number methods), ("closures", .number routines)]
  | .treesMissing | .planMissing => []

/-- No event asks for as much attention as a warning. -/
theorem reaches_warn (event : Event) : event.level.reaches .warn = false := by
  cases event <;> rfl

/-- The event in one line: its level, its message and its fields. -/
def line (event : Event) : String :=
  let fields := event.fields.map fun (name, value) => " " ++ name ++ "=" ++ value.render
  event.level.name ++ " " ++ event.message ++ String.join fields ++ "\n"

end Event

/-- How events are written: the text for an event, given how many were written before it. It may say
more than the event does, such as the time, so events that are alike may have different texts. -/
abbrev EventWriter := Nat → Event → String

namespace EventWriter

/-- Every event in its line, and nothing else. -/
def plain : EventWriter :=
  fun _ event => event.line

/-- The text of those events that reach a level. -/
def log (write : EventWriter) (least : Level) (events : List Event) : String :=
  String.join ((events.filter (·.level.reaches least)).mapIdx write)

/-- From the lowest level on all events are written. -/
theorem log_debug (write : EventWriter) (events : List Event) :
    write.log .debug events = String.join (events.mapIdx write) := by
  have hall : events.filter (·.level.reaches .debug) = events := by
    rw [List.filter_eq_self]
    intro event _
    exact event.level.reaches_debug
  rw [log, hall]

/-- From warnings on none is written. -/
theorem log_warn (write : EventWriter) (events : List Event) : write.log .warn events = "" := by
  have hnone : events.filter (·.level.reaches .warn) = [] := by
    rw [List.filter_eq_nil_iff]
    intro event _
    rw [event.reaches_warn]
    exact Bool.false_ne_true
  rw [log, hnone]
  rfl

end EventWriter

/-- A value, and the events recorded on the way to it, oldest first. -/
structure Recorded (α : Type) where
  value : α
  events : List Event

namespace Recorded

variable {α β : Type}

/-- Go on from a recorded value; the events of both parts are kept in order. -/
def andThen (first : Recorded α) (next : α → Recorded β) : Recorded β :=
  let second := next first.value
  ⟨second.value, first.events ++ second.events⟩

/-- A value that was reached without an event. -/
def silent (value : α) : Recorded α :=
  ⟨value, []⟩

/-- Record one event. -/
def record (event : Event) : Recorded Unit :=
  ⟨(), [event]⟩

instance : Monad Recorded where
  pure := silent
  bind := andThen

@[simp] theorem value_pure (value : α) : (pure value : Recorded α).value = value := rfl

@[simp] theorem events_pure (value : α) : (pure value : Recorded α).events = [] := rfl

@[simp] theorem value_bind (first : Recorded α) (next : α → Recorded β) :
    (first >>= next).value = (next first.value).value := rfl

@[simp] theorem events_bind (first : Recorded α) (next : α → Recorded β) :
    (first >>= next).events = first.events ++ (next first.value).events := rfl

end Recorded

end Routing
