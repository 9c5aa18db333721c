import Routing.Proofs.CommandLine.Blanks
import Routing.Proofs.Registry.Numbering

/-!
# Faults in definitions

A run stops at the first definition with a fault. By then those in front of it have been registered,
and each registration has been reported. Nothing is written to standard output, and the error output
ends with what is wrong with the definition. So the definitions in front of it show in the outcome
only when events are written, and what comes behind it never does.

* `exists_first_fault` — texts are split at the first that has a fault.
* `Router.registerTexts_append` — texts without a fault are registered one after the other, and the
  others go on from there.
* `Command.FirstFault` — the first definition with a fault, and those in front of it.
* `Command.exists_routes_run` — what comes of all runs with a first fault behind the same texts.
* `Command.outcome_of_definitions` — what the definitions of a run have to do with its outcome.
-/

namespace Routing

/-- Texts of which one has a fault are split at the first that has one. -/
theorem exists_first_fault {texts : List String}
    (h : ∃ text ∈ texts, ∃ fault, HasFault text fault) :
    ∃ front first back fault, texts = front ++ first :: back ∧
      (∀ text ∈ front, ∀ fault, ¬ HasFault text fault) ∧ HasFault first fault := by
  induction texts with
  | nil =>
    rcases h with ⟨text, htext, -⟩
    cases htext
  | cons text texts ih =>
    cases hread : readDefinition text with
    | error fault =>
      exact ⟨[], text, texts, fault, rfl, by simp, readDefinition_eq_error_iff.1 hread⟩
    | ok content =>
      have hnone := exists_readDefinition_eq_ok_iff.1 ⟨content, hread⟩
      rcases h with ⟨other, hother, cause, hcause⟩
      rcases List.mem_cons.1 hother with rfl | hbehind
      · exact absurd hcause (hnone cause)
      · rcases ih ⟨other, hbehind, cause, hcause⟩ with ⟨front, first, back, fault, rfl, hfront, hfirst⟩
        have hfaultless := List.forall_mem_cons.2 ⟨hnone, hfront⟩
        exact ⟨text :: front, first, back, fault, rfl, hfaultless, hfirst⟩

namespace Router

/-- Texts without a fault become the routes that they stand for, and each is reported. What is
registered behind them starts from these routes, and is reported behind them. -/
theorem registerTexts_append (registry : Registry Unit) {front : List String}
    (h : ∀ text ∈ front, ∀ fault, ¬ HasFault text fault) :
    ∃ (added : Registry Unit) (routes : List (Route Unit)),
      added.routes = registry.routes ++ routes ∧ List.Forall₂ Route.IsFor front routes ∧
      ∀ back, (ofRegistry registry).registerTexts (front ++ back) =
        let rest := (ofRegistry added).registerTexts back
        ⟨rest.value, routes.map Route.registration ++ rest.events⟩ := by
  induction front generalizing registry with
  | nil => exact ⟨registry, [], (List.append_nil _).symm, .nil, fun _ => rfl⟩
  | cons text front ih =>
    rw [List.forall_mem_cons] at h
    rcases exists_readDefinition_eq_ok_iff.2 h.1 with ⟨⟨m, p⟩, hread⟩
    rcases ih (registry.add m p ()) h.2 with ⟨added, routes, hroutes, hfor, hrest⟩
    have hfirst := isFor_nextRoute registry hread
    refine ⟨added, registry.nextRoute m p () :: routes, ?_, .cons hfirst hfor, ?_⟩
    · rw [hroutes]
      exact List.append_assoc _ [_] _
    · intro back
      rw [List.cons_append, registerTexts_cons_of_ok registry hread, hrest back]
      rfl

end Router

namespace Command

/-- The first definition with a fault, and those in front of it, which have none. -/
structure FirstFault (command : Command) (front : List String) (first : String)
    (fault : DefinitionFault) : Prop where
  faultless : ∀ text ∈ front, ∀ fault, ¬ HasFault text fault
  fault : HasFault first fault
  split : ∃ back, command.definitions = front ++ first :: back

/-- Texts without a fault become routes, numbered from zero. Every run whose first fault comes behind
these texts fails with this fault, after it has reported the routes and nothing else. -/
theorem exists_routes_run {front : List String}
    (h : ∀ text ∈ front, ∀ fault, ¬ HasFault text fault) :
    ∃ routes : List (Route Unit), List.Forall₂ Route.IsFor front routes ∧
      routes.map (·.id) = List.range front.length ∧
      ∀ (command : Command) (first : String) (fault : DefinitionFault),
        command.FirstFault front first fault →
          command.run = ⟨.failure "" fault.message, routes.map Route.registration⟩ := by
  rcases Router.registerTexts_append .empty h with ⟨added, routes, hroutes, hfor, hregister⟩
  obtain rfl : added.routes = routes := hroutes
  refine ⟨added.routes, hfor, ?_, ?_⟩
  · rw [hfor.length_eq]
    exact added.ids_eq_range
  · rintro command first fault ⟨-, hfault, back, hdefinitions⟩
    rw [run, hdefinitions, Router.empty, hregister,
      Router.registerTexts_cons_of_error added (readDefinition_eq_error_iff.2 hfault)]
    simp only [bind, Recorded.andThen, Recorded.value_pure, Recorded.events_pure, List.append_nil]

/-- What the definitions have to do with the outcome of a run. If one of them has a fault, there is a
first one, and with the same first fault all runs fail, write nothing to standard output, and end the
error output with the same text. Without `verbose` this is all of the error output. With it the
definitions in front of the fault have a part: in front of the text stands what is written for the
registrations of their routes, in order, and nothing else. What comes behind the fault, the request
and the other flags make no difference. If no definition has a fault, the outcome is the same for
definitions with more blanks. -/
theorem outcome_of_definitions (command : Command) (write : EventWriter) :
    ((∃ text ∈ command.definitions, ∃ fault, HasFault text fault) →
      ∃ front first fault, command.FirstFault front first fault ∧
        ∀ others, (∀ text ∈ others, ∀ fault, ¬ HasFault text fault) →
          ∃ routes : List (Route Unit), List.Forall₂ Route.IsFor others routes ∧
            routes.map (·.id) = List.range others.length ∧
            ∀ other : Command, other.FirstFault others first fault →
              let reports := String.join ((routes.map Route.registration).mapIdx write)
              (other.outcome write).value =
                ⟨1, "", (if other.verbose then reports else "") ++
                  ("Error: " ++ fault.message ++ "\n")⟩) ∧
    ((∀ text ∈ command.definitions, ∀ fault, ¬ HasFault text fault) →
      ∀ padded, List.Forall₂ (Relation.ReflTransGen AddsBlanks) command.definitions padded →
        { command with definitions := padded }.outcome write = command.outcome write) := by
  constructor
  · intro hsome
    rcases exists_first_fault hsome with ⟨front, first, back, fault, hsplit, hfront, hfault⟩
    refine ⟨front, first, fault, ⟨hfront, hfault, back, hsplit⟩, ?_⟩
    intro others hothers
    rcases exists_routes_run hothers with ⟨routes, hfor, hids, hrun⟩
    refine ⟨routes, hfor, hids, ?_⟩
    intro other hother reports
    rw [value_outcome, hrun other first fault hother, log_eq]
    rfl
  · intro hnone padded hpadded
    exact command.outcome_of_blanks write hnone hpadded

/-- A run with `verbose` and two definitions with a fault behind one without, and one definition with
blanks of all kinds. -/
theorem outcome_of_definitions_padded :
    (∃ front first fault,
      let command : Command := ⟨["GET /a", "nope", "FOO /x"], "GET", "/a", false, true, true⟩
      command.FirstFault front first fault ∧
        ∃ routes : List (Route Unit), List.Forall₂ Route.IsFor front routes ∧
          command.outcome.value =
            ⟨1, "", String.join ((routes.map Route.registration).mapIdx EventWriter.plain) ++
              ("Error: " ++ fault.message ++ "\n")⟩) ∧
    (⟨["\tget \u00a0 /a "], "GET", "/a", false, true, true⟩ : Command).outcome =
      (⟨["get /a"], "GET", "/a", false, true, true⟩ : Command).outcome := by
  constructor
  · let command : Command := ⟨["GET /a", "nope", "FOO /x"], "GET", "/a", false, true, true⟩
    have hfault := (outcome_of_definitions command .plain).1
      ⟨"nope", by simp [command], _, readDefinition_eq_error_iff.1 rfl⟩
    rcases hfault with ⟨front, first, fault, hfirst, hevery⟩
    rcases hevery front hfirst.faultless with ⟨routes, hfor, -, hruns⟩
    exact ⟨front, first, fault, hfirst, routes, hfor, hruns command hfirst⟩
  · refine (outcome_of_definitions ⟨["get /a"], "GET", "/a", false, true, true⟩ .plain).2 ?_ _ ?_
    · rw [List.forall_mem_singleton]
      exact exists_readDefinition_eq_ok_iff.1 ⟨_, rfl⟩
    · have hblank : Text.isBlank ' ' ∧ Text.isBlank '\t' ∧ Text.isBlank '\u00a0' := by decide
      have hfree :
          Text.isBlank 'g' = false ∧ Text.isBlank 'e' = false ∧ Text.isBlank 't' = false := by
        decide
      refine .cons ?_ .nil
      have hwider : AddsBlanks "get /a" "get \u00a0 /a" :=
        .inside "" "get" " " " \u00a0 " "/a" rfl (by simp) (by simp) (by simp [hfree]) (by simp)
          (by simp) (by simp [hblank])
      have hfront : AddsBlanks "get \u00a0 /a" "\tget \u00a0 /a" := .front "\t" (by simp [hblank])
      have hback : AddsBlanks "\tget \u00a0 /a" "\tget \u00a0 /a " := .back " " (by simp [hblank])
      exact ((Relation.ReflTransGen.single hwider).tail hfront).tail hback

/-- Two runs with `verbose` and the same first fault. A definition in front of it is reported, so the
error outputs are not the same. -/
theorem stderr_ne_of_definition_in_front :
    let alone : Command := ⟨["nope"], "GET", "/a", false, false, true⟩
    let behind : Command := ⟨["GET /a", "nope"], "GET", "/a", false, false, true⟩
    alone.FirstFault [] "nope" (.incomplete "nope") ∧
      behind.FirstFault ["GET /a"] "nope" (.incomplete "nope") ∧
      (∀ write, (behind.outcome write).value.stderr =
        write 0 (.registering .get (.ofText "/a") 0) ++ (alone.outcome write).value.stderr) ∧
      behind.outcome.value.stderr ≠ alone.outcome.value.stderr := by
  intro alone behind
  have hfault : HasFault "nope" (.incomplete "nope") := readDefinition_eq_error_iff.1 rfl
  have hread : readDefinition "GET /a" = .ok (.get, .ofText "/a") := rfl
  have halone : alone.run = ⟨.failure "" (DefinitionFault.incomplete "nope").message, []⟩ := rfl
  have hbehind : behind.run = ⟨.failure "" (DefinitionFault.incomplete "nope").message,
      [.registering .get (.ofText "/a") 0]⟩ := rfl
  have hstderr : ∀ write, (behind.outcome write).value.stderr =
      write 0 (.registering .get (.ofText "/a") 0) ++ (alone.outcome write).value.stderr := by
    intro write
    have hlog : behind.log write [.registering .get (.ofText "/a") 0] =
        write 0 (.registering .get (.ofText "/a") 0) := by
      simp [log_eq, behind]
    have hsilent : alone.log write [] = "" := by
      simp [log_eq]
    rw [value_outcome, value_outcome, halone, hbehind, hlog, hsilent, String.empty_append]
  refine ⟨⟨by simp, hfault, [], rfl⟩, ⟨?_, hfault, [], rfl⟩, hstderr, ?_⟩
  · rw [List.forall_mem_singleton]
    exact exists_readDefinition_eq_ok_iff.1 ⟨_, hread⟩
  · rw [hstderr, ne_eq, String.append_eq_right_iff]
    decide

end Command

end Routing
