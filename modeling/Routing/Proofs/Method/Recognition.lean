import Routing.Proofs.Descent.Trail
import Routing.Proofs.Method.Spelling
import Routing.Proofs.Plan.Agreement

/-!
# Where methods are recognised

A registration recognises a method by the upper case of the text that names it, so texts with the
same upper case name the same method, or none. A request has to spell the token itself: the descent
and the plan both look for it, each in its own way, and find the same.

* `Method.parse_eq_elim` — reading a method, with the upper case alone.
* `Forest.descend_eq_some_iff`, `Plan.routine?_compile_eq_some_iff` — the two ways to look for a
  token.
* `Method.recognised_up_to_case` — what registrations and requests take for a method.
-/

namespace Routing

variable {H : Type}

/-! ## Registrations -/

namespace Method

/-- It makes no difference that the text is tried as it stands before its upper case is. -/
theorem parse_eq_elim (raw : String) :
    parse raw = (ofToken? (Text.uppercase raw)).elim (.error (.unsupportedMethod raw)) .ok := by
  cases hfound : ofToken? (Text.uppercase raw) with
  | some method => exact parse_eq_ok_iff.2 (ofToken?_eq_some_iff.1 hfound)
  | none =>
    apply parse_eq_error
    intro method
    have hupper := ofToken?_eq_none_iff.1 hfound method
    refine ⟨?_, hupper⟩
    -- a text that is a token is its own upper case
    rintro rfl
    exact hupper method.uppercase_token.symm

theorem parse_eq_error_of_uppercase {raw : String}
    (h : ∀ method : Method, Text.uppercase raw ≠ method.token) :
    parse raw = .error (.unsupportedMethod raw) := by
  have hnone : ofToken? (Text.uppercase raw) = none :=
    ofToken?_eq_none_iff.2 fun method => (h method).symm
  rw [parse_eq_elim, hnone]
  rfl

/-- Texts with the same upper case name the same method, or each is refused as it stands. -/
theorem parse_of_uppercase_eq {raw other : String}
    (h : Text.uppercase raw = Text.uppercase other) :
    (∃ method, parse raw = .ok method ∧ parse other = .ok method) ∨
      parse raw = .error (.unsupportedMethod raw) ∧
        parse other = .error (.unsupportedMethod other) := by
  rw [parse_eq_elim raw, parse_eq_elim other, h]
  cases ofToken? (Text.uppercase other) with
  | some method => exact Or.inl ⟨method, rfl, rfl⟩
  | none => exact Or.inr ⟨rfl, rfl⟩

end Method

/-! ## Requests -/

/-- A descent starts in the tree of the method that has the token. -/
theorem Forest.descend_eq_some_iff {forest : Forest} {token url : String}
    {found : Node × List Visit} :
    forest.descend token url = some found ↔
      ∃ method root, token = method.token ∧ forest.tree? method = some root ∧
        root.descend (Url.pieces url) = some found := by
  simp only [descend, Option.bind_eq_some_iff, Method.ofToken?_eq_some_iff]
  constructor
  · rintro ⟨root, ⟨method, rfl, hroot⟩, hfound⟩
    exact ⟨method, root, rfl, hroot, hfound⟩
  · rintro ⟨method, root, rfl, hroot, hfound⟩
    exact ⟨root, ⟨method, rfl, hroot⟩, hfound⟩

/-- A plan starts the routine of the tree of the method that has the token. -/
theorem Plan.routine?_compile_eq_some_iff {routes : List (Route H)} {forest : Forest}
    {token : String} {routine : Routine} :
    (Plan.compile routes forest).routine? token = some routine ↔
      ∃ method root, token = method.token ∧ forest.tree? method = some root ∧
        root.compile routes = routine := by
  simp only [routine?_compile, Option.map_eq_some_iff, Option.bind_eq_some_iff,
    Method.ofToken?_eq_some_iff]
  constructor
  · rintro ⟨root, ⟨method, rfl, hroot⟩, hroutine⟩
    exact ⟨method, root, rfl, hroot, hroutine⟩
  · rintro ⟨method, root, rfl, hroot, hroutine⟩
    exact ⟨root, ⟨method, rfl, hroot⟩, hroutine⟩

namespace Narrowing

/-- The survivors of a request have its token. -/
theorem mem_routesFor_of_mem_survivors {routes : List (Route H)} {token url : String} {r : Route H}
    (h : r ∈ survivors routes token url) : r ∈ routesFor token routes := by
  rcases survivors_cases routes token url with ⟨edges, -, hsurvivors⟩ | ⟨-, hsurvivors⟩
  · rw [hsurvivors] at h
    exact (mem_endingAt_iff.1 h).1
  · rw [hsurvivors] at h
    exact absurd h List.not_mem_nil

end Narrowing

namespace Router

/-- A request whose method is no token is not found. -/
theorem answer_of_unknown {router : Router H} (h : router.Coherent) {token : String}
    (hunknown : ∀ method : Method, token ≠ method.token) (url : String) :
    (router.answer token url).value.1 = .error (.routeNotFound token url) := by
  have hown : routesFor token router.routes = [] :=
    routesFor_eq_nil (Method.ofToken?_eq_none_iff.2 fun method => (hunknown method).symm) _
  have hnone : Narrowing.survivors router.routes token url = [] := by
    rw [List.eq_nil_iff_forall_not_mem]
    intro r hr
    have hmem := Narrowing.mem_routesFor_of_mem_survivors hr
    rw [hown] at hmem
    exact List.not_mem_nil hmem
  rw [answer_eq h, if_pos hnone]
  rfl

/-- The routes that answer a request are of the method that has its token. -/
theorem token_of_mem_answer {router : Router H} (h : router.Coherent) {token url : String}
    {found : List (Match H)} (hanswer : (router.answer token url).value.1 = .ok found)
    {m : Match H} (hm : m ∈ found) : token = m.route.method.token := by
  rw [answer_eq h] at hanswer
  by_cases hnone : Narrowing.survivors router.routes token url = []
  · rw [if_pos hnone] at hanswer
    cases hanswer
  · rw [if_neg hnone] at hanswer
    cases hanswer
    rcases List.mem_map.1 hm with ⟨r, hr, rfl⟩
    exact (mem_routesFor_iff.1 (Narrowing.mem_routesFor_of_mem_survivors hr)).2.symm

end Router

/-! ## Registrations and requests -/

/-- A registration takes a text for the method of which its upper case is the token, whether or not
the text is tried as it stands first. So texts with the same upper case are taken for the same
method, or each is refused as it stands, and a text is refused when its upper case is no token. A
request is recognised by the token alone, by the descent as well as by the plan: in every state of a
router it is not found if its method is no token, and otherwise all routes that answer it are of the
method with this token. -/
theorem Method.recognised_up_to_case (operations : List (Operation H)) :
    (∀ raw method, parse raw = .ok method ↔ Text.uppercase raw = method.token) ∧
    (∀ raw, parse raw =
      (ofToken? (Text.uppercase raw)).elim (.error (.unsupportedMethod raw)) .ok) ∧
    (∀ raw other, Text.uppercase raw = Text.uppercase other →
      (∃ method, parse raw = .ok method ∧ parse other = .ok method) ∨
        parse raw = .error (.unsupportedMethod raw) ∧
          parse other = .error (.unsupportedMethod other)) ∧
    (∀ raw, (∀ method : Method, Text.uppercase raw ≠ method.token) →
      parse raw = .error (.unsupportedMethod raw)) ∧
    (∀ token method, ofToken? token = some method ↔ token = method.token) ∧
    (∀ (forest : Forest) token url found, forest.descend token url = some found ↔
      ∃ method root, token = method.token ∧ forest.tree? method = some root ∧
        root.descend (Url.pieces url) = some found) ∧
    (∀ (forest : Forest) (routes : List (Route H)) token routine,
      (Plan.compile routes forest).routine? token = some routine ↔
        ∃ method root, token = method.token ∧ forest.tree? method = some root ∧
          root.compile routes = routine) ∧
    ∀ token url,
      let byDescent := ((Router.after operations).answer token url).value.1
      let byPlan := ((Router.after operations).answerByPlan token url).value.1
      ((∀ method : Method, token ≠ method.token) →
        byDescent = .error (.routeNotFound token url) ∧
          byPlan = .error (.routeNotFound token url)) ∧
      ∀ found, byDescent = .ok found ∨ byPlan = .ok found →
        ∀ m ∈ found, token = m.route.method.token := by
  refine ⟨?_, parse_eq_elim, fun _ _ => parse_of_uppercase_eq,
    fun _ => parse_eq_error_of_uppercase, ?_, fun _ _ _ _ => Forest.descend_eq_some_iff,
    fun _ _ _ _ => Plan.routine?_compile_eq_some_iff, ?_⟩
  · intro raw method
    rw [parse_eq_ok_iff, eq_comm]
  · intro token method
    rw [ofToken?_eq_some_iff, eq_comm]
  · intro token url byDescent byPlan
    have hafter := Router.coherent_after operations
    have hsame : byPlan = byDescent := Router.value_answerByPlan_eq hafter token url
    rw [hsame, and_self]
    constructor
    · intro hunknown
      exact Router.answer_of_unknown hafter hunknown url
    · intro found hanswer m hm
      rw [or_self] at hanswer
      exact Router.token_of_mem_answer hafter hanswer hm

/-- The ligature of `f` and `i` becomes two letters in upper case, and letters other than `s` and
`i` become `S` and `I`. -/
example :
    Method.parse "prop\ufb01nd" = .ok .propfind ∧ Method.parse "\u017fearch" = .ok .search ∧
      Method.parse "l\u0131nk" = .ok .link ∧ Method.ofToken? "propfind" = none := by
  decide +kernel

end Routing
