import Routing.Proofs.CommandLine.Definitions
import Routing.Proofs.Method.Spelling
import Routing.Proofs.Path.Canonical
import Routing.Proofs.Session.History

/-!
# The parts of a definition

Between the blanks at the ends of a definition stand a method, a blank and a path. Which texts these
are, and what is wrong with a definition, can be said without a way to find it.

* `HasParts` — the method and the path of a definition.
* `HasFault` — why a definition stops a run.
* `Route.IsFor` — the route that a definition stands for.
* `readDefinition_eq_ok_iff`, `readDefinition_eq_error_iff` — reading finds the parts, or the fault.
* `exists_readDefinition_eq_ok_iff` — there is always one of the two.
-/

namespace Routing

/-! ## Parts and faults -/

/-- The parts of a definition. Between the blanks at its ends stand a method in which there is no
blank, one blank, and the rest, which is the path. -/
structure HasParts (text method path : String) : Prop where
  between : ∃ blank, Text.isBlank blank ∧
    Text.Trims text.toList (method.toList ++ blank :: path.toList)
  blank_free : ∀ c ∈ method.toList, Text.isBlank c = false

/-- Why a definition stops a run. -/
inductive HasFault (text : String) : DefinitionFault → Prop where
  /-- There is no blank in it but at its ends. -/
  | incomplete (left : List Char) (htrims : Text.Trims text.toList left)
      (hfree : ∀ c ∈ left, Text.isBlank c = false) : HasFault text (.incomplete text)
  /-- No method is written as its method is, in upper case or not. -/
  | refused (method path : String) (hparts : HasParts text method path)
      (hunknown : ∀ m : Method, m.token ≠ method ∧ m.token ≠ Text.uppercase method) :
      HasFault text (.refused text (.unsupportedMethod method))

/-- A route is the one that a definition stands for. -/
def Route.IsFor {H : Type} (text : String) (route : Route H) : Prop :=
  ∃ method path, HasParts text method path ∧ route.method.token = Text.uppercase method ∧
    route.path = Path.ofText path

/-! ## Splitting a definition -/

theorem splitDefinition_eq_none_iff {text : String} :
    splitDefinition text = none ↔ ∀ c ∈ Text.trim text.toList, Text.isBlank c = false := by
  rw [splitDefinition]
  cases hrest : (Text.trim text.toList).dropWhile (!Text.isBlank ·) with
  | nil => simpa [List.dropWhile_eq_nil_iff] using hrest
  | cons blank rest =>
    have hne : (Text.trim text.toList).dropWhile (!Text.isBlank ·) ≠ [] := by simp [hrest]
    simpa [List.dropWhile_eq_nil_iff] using hne

/-- Splitting a definition finds its parts. -/
theorem splitDefinition_eq_some_iff {text method path : String} :
    splitDefinition text = some (method, path) ↔ HasParts text method path := by
  constructor
  · intro h
    rw [splitDefinition] at h
    cases hrest : (Text.trim text.toList).dropWhile (!Text.isBlank ·) with
    | nil => simp [hrest] at h
    | cons blank rest =>
      simp only [hrest, Option.some.injEq, Prod.mk.injEq] at h
      rcases h with ⟨rfl, rfl⟩
      have hhead := List.head?_dropWhile_not (!Text.isBlank ·) (Text.trim text.toList)
      rw [hrest] at hhead
      have hblank : Text.isBlank blank := by simpa using hhead
      refine ⟨⟨blank, hblank, ?_⟩, ?_⟩
      · rw [Text.trims_iff, String.toList_ofList, String.toList_ofList, ← hrest]
        exact List.takeWhile_append_dropWhile
      · intro c hc
        rw [String.toList_ofList] at hc
        simpa using List.mem_takeWhile_imp hc
  · rintro ⟨⟨blank, hblank, htrims⟩, hfree⟩
    have hmethod : ∀ c ∈ method.toList, (!Text.isBlank c) = true := by
      intro c hc
      rw [hfree c hc]
      rfl
    -- the method goes up to the first blank
    have hsplit : (method.toList ++ blank :: path.toList).takeWhile (!Text.isBlank ·) =
          method.toList ∧
        (method.toList ++ blank :: path.toList).dropWhile (!Text.isBlank ·) =
          blank :: path.toList := by
      rw [List.takeWhile_append_of_pos hmethod, List.dropWhile_append_of_pos hmethod]
      simp [hblank]
    rw [splitDefinition, ← Text.trims_iff.1 htrims, hsplit.1, hsplit.2]
    simp

/-! ## Reading a definition -/

theorem Method.parse_eq_error_iff {raw : String} {cause : RoutingError} :
    parse raw = .error cause ↔
      (∀ m : Method, m.token ≠ raw ∧ m.token ≠ Text.uppercase raw) ∧
        cause = .unsupportedMethod raw := by
  rw [← or_ofToken?_eq_none_iff, parse]
  cases (ofToken? raw).or (ofToken? (Text.uppercase raw)) with
  | some method => simp
  | none => simp [eq_comm]

/-- Reading a definition gives what its parts stand for. -/
theorem readDefinition_eq_ok_iff {text : String} {m : Method} {p : Path} :
    readDefinition text = .ok (m, p) ↔
      ∃ method path, HasParts text method path ∧ Method.parse method = .ok m ∧
        p = Path.ofText path := by
  rw [readDefinition]
  constructor
  · intro h
    cases hsplit : splitDefinition text with
    | none =>
      rw [hsplit] at h
      cases h
    | some parts =>
      rcases parts with ⟨method, path⟩
      rw [hsplit] at h
      cases hparse : Method.parse method with
      | ok m' =>
        simp only [hparse] at h
        cases h
        exact ⟨method, path, splitDefinition_eq_some_iff.1 hsplit, hparse, rfl⟩
      | error cause => simp [hparse] at h
  · rintro ⟨method, path, hparts, hparse, rfl⟩
    simp [splitDefinition_eq_some_iff.2 hparts, hparse]

/-- The next route of a registry is the one for the definition that it was read from. -/
theorem isFor_nextRoute (registry : Registry Unit) {text : String} {m : Method} {p : Path}
    (h : readDefinition text = .ok (m, p)) : (registry.nextRoute m p ()).IsFor text := by
  rcases readDefinition_eq_ok_iff.1 h with ⟨method, path, hparts, hparse, hpath⟩
  exact ⟨method, path, hparts, Method.parse_eq_ok_iff.1 hparse, hpath⟩

/-- Reading a definition fails with its fault. -/
theorem readDefinition_eq_error_iff {text : String} {fault : DefinitionFault} :
    readDefinition text = .error fault ↔ HasFault text fault := by
  rw [readDefinition]
  constructor
  · intro h
    cases hsplit : splitDefinition text with
    | none =>
      rw [hsplit] at h
      cases h
      exact .incomplete _ (Text.trims_trim _) (splitDefinition_eq_none_iff.1 hsplit)
    | some parts =>
      rcases parts with ⟨method, path⟩
      rw [hsplit] at h
      cases hparse : Method.parse method with
      | ok m =>
        simp [hparse] at h
      | error cause =>
        simp only [hparse] at h
        cases h
        rcases Method.parse_eq_error_iff.1 hparse with ⟨hunknown, rfl⟩
        exact .refused method path (splitDefinition_eq_some_iff.1 hsplit) hunknown
  · intro h
    cases h with
    | incomplete left htrims hfree =>
      rw [Text.trims_iff.1 htrims] at hfree
      rw [splitDefinition_eq_none_iff.2 hfree]
    | refused method path hparts hunknown =>
      have hparse := Method.parse_eq_error_iff.2 ⟨hunknown, rfl⟩
      simp [splitDefinition_eq_some_iff.2 hparts, hparse]

/-- A definition can be read if it has no fault, and only then. -/
theorem exists_readDefinition_eq_ok_iff {text : String} :
    (∃ content, readDefinition text = .ok content) ↔ ∀ fault, ¬ HasFault text fault := by
  simp only [← readDefinition_eq_error_iff]
  cases readDefinition text <;> simp

end Routing
