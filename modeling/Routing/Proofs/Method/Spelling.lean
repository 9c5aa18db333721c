import Routing.Proofs.Session.History

/-!
# How methods may be spelled

A registration may write a method in any way of which the upper case is its token. The tokens are
upper case already, so it makes no difference that they are tried first.

* `Text.upperOf_of_lt` — characters before `a` are their own upper case.
* `Method.uppercase_token` — a token is its own upper case.
* `Method.parse_eq_ok_iff` — the texts that name a method.
-/

namespace Routing

/-! ## Characters that stay -/

namespace Text

/-- Both tables begin behind the upper-case letters. -/
theorem tables_from_lower_case :
    (∀ run ∈ caseRuns, 0x61 ≤ run.first) ∧ ∀ expansion ∈ caseExpansions, 0x61 ≤ expansion.1 := by
  decide +kernel

/-- A character before `a` is its own upper case. -/
theorem upperOf_of_lt {c : Char} (h : c.toNat < 0x61) : upperOf c = [c] := by
  have hexpansion : caseExpansions.lookup c.toNat = none := by
    rw [List.lookup_eq_none_iff]
    intro expansion hmem
    have hle := tables_from_lower_case.2 expansion hmem
    exact bne_iff_ne.2 (by omega)
  have hrun : caseRuns.findSome? (·.image? c.toNat) = none := by
    rw [List.findSome?_eq_none_iff]
    intro run hmem
    have hle := tables_from_lower_case.1 run hmem
    exact if_neg (by omega)
  rw [upperOf, hexpansion, hrun]
  rfl

theorem uppercase_eq_self {text : String} (h : ∀ c ∈ text.toList, c.toNat < 0x61) :
    uppercase text = text := by
  have hchars : text.toList.flatMap upperOf = text.toList.flatMap fun c => [c] := by
    apply List.flatMap_congr
    intro c hc
    exact upperOf_of_lt (h c hc)
  rw [uppercase, hchars, List.flatMap_singleton', String.ofList_toList]

end Text

/-! ## Tokens -/

namespace Method

theorem uppercase_token (method : Method) : Text.uppercase method.token = method.token := by
  apply Text.uppercase_eq_self
  cases method <;> simp [token]

/-- A text names the method of which its upper case is the token. -/
theorem parse_eq_ok_iff {raw : String} {method : Method} :
    parse raw = .ok method ↔ method.token = Text.uppercase raw := by
  have hparse : parse raw = .ok method ↔
      (ofToken? raw).or (ofToken? (Text.uppercase raw)) = some method := by
    rw [parse]
    cases (ofToken? raw).or (ofToken? (Text.uppercase raw)) <;> simp
  rw [hparse, Option.or_eq_some_iff, ofToken?_eq_some_iff, ofToken?_eq_some_iff]
  constructor
  · rintro (hraw | ⟨-, hupper⟩)
    · rw [← hraw, uppercase_token]
    · exact hupper
  · intro hupper
    cases hraw : ofToken? raw with
    | none => exact .inr ⟨rfl, hupper⟩
    | some other =>
      -- a token is its own upper case, so this is the same method
      have hother := ofToken?_eq_some_iff.1 hraw
      rw [← hother, uppercase_token] at hupper
      exact .inl (by rw [token_injective hupper, hother])

end Method

end Routing
