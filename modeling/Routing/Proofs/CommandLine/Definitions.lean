import Routing.CommandLine
import Routing.Proofs.Session.Coherence

/-!
# Definitions given as texts

A run registers its definitions before it does anything else. What a definition stands for, or why
it stops the run, is written in its own text. So a run registers what all its definitions stand
for, or it stops at the first one that has a fault.

* `readDefinition` — what one text stands for.
* `Registry.addAll` — a registry with more routes, one behind the other.
* `Route.registration` — the event that reports a route.
* `Router.registerText_eq` — one text adds what it stands for and reports it, or ends with its fault.
* `Router.registerTexts_cons_of_ok`, `Router.registerTexts_cons_of_error` — the same for a text with
  others behind it.
* `Router.value_registerTexts` — reading all texts and then adding what they stand for.
-/

namespace Routing

/-- The method and the path that a definition stands for, or its fault. -/
def readDefinition (text : String) : Except DefinitionFault (Method × Path) :=
  match splitDefinition text with
  | none => .error (.incomplete text)
  | some (method, path) =>
    match Method.parse method with
    | .ok m => .ok (m, Path.ofText path)
    | .error cause => .error (.refused text cause)

/-- The registry with more routes, in the order in which their methods and paths are given. -/
def Registry.addAll (registry : Registry Unit) (contents : List (Method × Path)) :
    Registry Unit :=
  contents.foldl (fun registry content => registry.add content.1 content.2 ()) registry

/-- The event that reports the registration of a route. -/
def Route.registration {H : Type} (route : Route H) : Event :=
  .registering route.method route.path route.id

namespace Router

/-- Registering one text adds the route that it stands for and reports this, or ends with its fault
and reports nothing. -/
theorem registerText_eq (router : Router Unit) (text : String) :
    router.registerText text =
      match readDefinition text with
      | .ok (m, p) =>
        ⟨.ok (ofRegistry (router.registry.add m p ())),
          [(router.registry.nextRoute m p ()).registration]⟩
      | .error fault => ⟨.error fault, []⟩ := by
  rw [registerText, readDefinition]
  cases splitDefinition text with
  | none => rfl
  | some parts =>
    rcases parts with ⟨method, path⟩
    simp only
    cases hmethod : Method.parse method with
    | ok m =>
      rw [router.register_of_parse_eq_ok hmethod]
      rfl
    | error cause =>
      rw [router.register_of_parse_eq_error hmethod]
      rfl

theorem registerTexts_cons_of_ok (registry : Registry Unit) {text : String} {m : Method} {p : Path}
    (h : readDefinition text = .ok (m, p)) (texts : List String) :
    (ofRegistry registry).registerTexts (text :: texts) =
      let rest := (ofRegistry (registry.add m p ())).registerTexts texts
      ⟨rest.value, (registry.nextRoute m p ()).registration :: rest.events⟩ := by
  rw [registerTexts, registerText_eq, h]
  rfl

theorem registerTexts_cons_of_error (registry : Registry Unit) {text : String}
    {fault : DefinitionFault} (h : readDefinition text = .error fault) (texts : List String) :
    (ofRegistry registry).registerTexts (text :: texts) = ⟨.error fault, []⟩ := by
  rw [registerTexts, registerText_eq, h]
  rfl

/-- Registering texts adds what they stand for, or ends with the first fault. -/
theorem value_registerTexts (registry : Registry Unit) (texts : List String) :
    ((ofRegistry registry).registerTexts texts).value =
      (texts.mapM readDefinition).map fun contents => ofRegistry (registry.addAll contents) := by
  induction texts generalizing registry with
  | nil => rfl
  | cons text texts ih =>
    rw [List.mapM_cons]
    cases hread : readDefinition text with
    | error fault =>
      rw [registerTexts_cons_of_error registry hread]
      rfl
    | ok content =>
      rw [registerTexts_cons_of_ok registry hread]
      simp only [ih]
      cases texts.mapM readDefinition <;> rfl

end Router

end Routing
