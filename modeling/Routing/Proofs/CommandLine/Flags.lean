import Routing.Proofs.CommandLine.Definitions
import Routing.Proofs.Plan.Agreement

/-!
# Flags of the command line

A run may be told to answer with a plan, and to list the trees before it answers. The first makes no
difference, unless the events of the run are written. The second puts the listing in front of what a
run writes whose definitions can all be registered, and makes no other difference.

* `Command.value_run` — what comes of a run, read off its definitions and its request.
* `Command.value_outcome` — with `verbose` a run writes the log of its events, and all else as
  without it.
* `Command.outcome_of_flags` — the outcome under all flags.
-/

namespace Routing

namespace Command

/-- Once routes are registered, a command is carried out from the routes alone. -/
theorem value_answerWith (command : Command) (registry : Registry Unit) :
    (command.answerWith (.ofRegistry registry)).value =
      .ofAnswer (if command.listTrees then (Forest.ofRoutes registry.routes).listing else "")
        ((Forest.ofRoutes registry.routes).answer registry.routes command.method command.url) := by
  have hcoherent := Router.coherent_withForest (Router.coherent_ofRegistry registry)
  have hanswer := Router.value_answer hcoherent command.method command.url
  have hplan := Router.value_answerByPlan_eq hcoherent command.method command.url
  cases hcompiled : command.compiled with
  | false =>
    simp only [answerWith, hcompiled, Recorded.value_bind, Bool.false_eq_true, if_false]
    exact congrArg (Outcome.ofAnswer _) hanswer
  | true =>
    simp only [answerWith, hcompiled, Recorded.value_bind, if_true]
    exact congrArg (Outcome.ofAnswer _) (hplan.trans hanswer)

/-- What comes of a run. It fails at the first definition with a fault, or answers the request from
the routes that the definitions stand for. -/
theorem value_run (command : Command) :
    command.run.value =
      match command.definitions.mapM readDefinition with
      | .ok contents =>
        let routes := (Registry.empty.addAll contents).routes
        .ofAnswer (if command.listTrees then (Forest.ofRoutes routes).listing else "")
          ((Forest.ofRoutes routes).answer routes command.method command.url)
      | .error fault => .failure "" fault.message := by
  have hregister := Router.value_registerTexts .empty command.definitions
  rw [run, Recorded.value_bind, Router.empty, hregister]
  cases command.definitions.mapM readDefinition with
  | ok contents => exact value_answerWith command _
  | error fault => rfl

/-- The outcome of a run is what comes of it, and the log in front of its error output. -/
theorem value_outcome (command : Command) (write : EventWriter) :
    (command.outcome write).value =
      { command.run.value with
        stderr := command.log write command.run.events ++ command.run.value.stderr } := rfl

/-- Without `verbose` there is no log. -/
theorem value_outcome_of_quiet (command : Command) (write : EventWriter) :
    ({ command with verbose := false }.outcome write).value = command.run.value := by
  rw [value_outcome, log_eq, if_neg Bool.false_ne_true, String.empty_append]
  rfl

/-- Listing the trees is not reported. -/
theorem events_run_of_listTrees (command : Command) (listTrees : Bool) :
    { command with listTrees }.run.events = command.run.events := by
  have hanswer : ∀ router,
      ({ command with listTrees }.answerWith router).events = (command.answerWith router).events := by
    intro router
    simp only [answerWith, Recorded.events_bind]
    cases command.compiled <;> rfl
  rw [run, run, Recorded.events_bind, Recorded.events_bind]
  cases (Router.empty.registerTexts command.definitions).value with
  | ok router => exact congrArg _ (hanswer router)
  | error fault => rfl

end Command

namespace Outcome

/-- What was written before an answer stands in front of it, and changes nothing else. -/
theorem ofAnswer_eq {H : Type} (written : String) (answer : Answer H) :
    ofAnswer written answer =
      { ofAnswer "" answer with stdout := written ++ (ofAnswer "" answer).stdout } := by
  cases answer <;> simp [ofAnswer, failure]

end Outcome

namespace Command

/-- The listing stands before the standard output when all definitions can be registered, and makes
no other difference. -/
theorem value_run_of_listTrees (command : Command) :
    let plain := { command with listTrees := false }.run.value
    let listed := { command with listTrees := true }.run.value
    listed.exitCode = plain.exitCode ∧ listed.stderr = plain.stderr ∧
      match (Router.empty.registerTexts command.definitions).value with
      | .ok router => listed.stdout = (Forest.ofRoutes router.routes).listing ++ plain.stdout
      | .error _ => listed.stdout = "" ∧ plain.stdout = "" := by
  intro plain listed
  have hplain : plain = _ := value_run { command with listTrees := false }
  have hlisted : listed = _ := value_run { command with listTrees := true }
  rw [Router.empty, Router.value_registerTexts]
  cases hread : command.definitions.mapM readDefinition with
  | error fault =>
    simp only [hread] at hplain hlisted
    rw [hplain, hlisted]
    exact ⟨rfl, rfl, rfl, rfl⟩
  | ok contents =>
    simp only [hread, Bool.false_eq_true, if_false, if_true] at hplain hlisted
    rw [hlisted, hplain, Outcome.ofAnswer_eq]
    exact ⟨rfl, rfl, rfl⟩

/-- Flags do not change the answer. With a plan a run has the same exit status and standard output as
by descent, and without `verbose` the same error output. Listing the trees leaves the exit status and
the error output as they are. It puts the listing of the registered routes before the standard output
when all definitions can be registered, also if the request fails then; when one of them cannot,
nothing is written there with or without it. -/
theorem outcome_of_flags (command : Command) (write : EventWriter) :
    (∀ compiled,
      let planned := ({ command with compiled }.outcome write).value
      let plain := (command.outcome write).value
      planned.exitCode = plain.exitCode ∧ planned.stdout = plain.stdout) ∧
    (∀ compiled,
      ({ command with compiled, verbose := false }.outcome write).value =
        ({ command with verbose := false }.outcome write).value) ∧
    let plain := ({ command with listTrees := false }.outcome write).value
    let listed := ({ command with listTrees := true }.outcome write).value
    listed.exitCode = plain.exitCode ∧ listed.stderr = plain.stderr ∧
      match (Router.empty.registerTexts command.definitions).value with
      | .ok router => listed.stdout = (Forest.ofRoutes router.routes).listing ++ plain.stdout
      | .error _ => listed.stdout = "" ∧ plain.stdout = "" := by
  have hcompiled : ∀ compiled, { command with compiled }.run.value = command.run.value := by
    intro compiled
    rw [value_run, value_run]
  refine ⟨?_, ?_, ?_⟩
  · intro compiled planned plain
    have hplanned : planned = _ := value_outcome { command with compiled } write
    rw [hcompiled] at hplanned
    rw [hplanned]
    exact ⟨rfl, rfl⟩
  · intro compiled
    rw [command.value_outcome_of_quiet write]
    exact (value_outcome_of_quiet { command with compiled } write).trans (hcompiled compiled)
  · intro plain listed
    obtain ⟨hexit, hstderr, hstdout⟩ := command.value_run_of_listTrees
    refine ⟨hexit, ?_, hstdout⟩
    -- the log is that of the same events
    show log _ write _ ++ _ = log _ write _ ++ _
    rw [hstderr, log_eq, log_eq, events_run_of_listTrees command true,
      events_run_of_listTrees command false]

end Command

end Routing
