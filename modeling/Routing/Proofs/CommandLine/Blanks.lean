import Routing.Proofs.CommandLine.Flags
import Routing.Proofs.CommandLine.Parts

/-!
# Blanks in definitions

A run whose definitions have no fault does not depend on the blanks around them and behind their
methods: those at the ends of a definition are trimmed, and those behind its method stand at the
start of a path, where they are trimmed too.

* `Path.trimmedPieces_of_blank_front`, `Path.trimmedPieces_of_blank_back` — blanks at the ends of a
  text leave its pieces as they are.
* `AddsBlanks` — a definition is another one with more blanks.
* `readDefinition_eq_of_blanks` — both stand for the same, if there is no fault in the other one.
* `Command.outcome_of_blanks` — a run has the same outcome with more blanks in its definitions.
-/

namespace Routing

open Text (slash)

/-! ## Blanks around a text -/

namespace Text

theorem trim_of_blank_front {front : List Char} (h : ∀ c ∈ front, isBlank c) (cs : List Char) :
    trim (front ++ cs) = trim cs := by
  rw [trim, trimStart_append_of_blank h, trim]

theorem trim_of_blank_back {back : List Char} (h : ∀ c ∈ back, isBlank c) (cs : List Char) :
    trim (cs ++ back) = trim cs := by
  rcases (trims_trim cs).between with ⟨before, behind, hcs, hbefore, hbehind⟩
  have hall : cs ++ back = before ++ trim cs ++ (behind ++ back) := by
    rw [← List.append_assoc, ← hcs]
  have htrims : Trims (cs ++ back) (trim cs) :=
    ⟨⟨before, behind ++ back, hall, hbefore, List.forall_mem_append.2 ⟨hbehind, h⟩⟩,
      blankFreeEnds_trim cs⟩
  exact (trims_iff.1 htrims).symm

theorem slash_not_mem_of_blank {cs : List Char} (h : ∀ c ∈ cs, isBlank c) : slash ∉ cs := by
  intro hslash
  have hblank := h slash hslash
  revert hblank
  decide

end Text

namespace Path

/-- The pieces on both sides of a slash. -/
theorem trimmedPieces_append_slash (front back : List Char) :
    trimmedPieces (front ++ slash :: back) = trimmedPieces front ++ trimmedPieces back := by
  simp [trimmedPieces, Text.cut_append_slash]

/-- Of a text without a slash only what trimming leaves matters. -/
theorem trimmedPieces_of_trim_eq {cs ds : List Char} (hcs : slash ∉ cs) (hds : slash ∉ ds)
    (h : Text.trim cs = Text.trim ds) : trimmedPieces cs = trimmedPieces ds := by
  simp only [trimmedPieces, Text.cut, List.splitOn_eq_singleton hcs, List.splitOn_eq_singleton hds,
    List.map_singleton, h]

theorem trimmedPieces_of_blank_front {front : List Char} (h : ∀ c ∈ front, Text.isBlank c)
    (cs : List Char) : trimmedPieces (front ++ cs) = trimmedPieces cs := by
  -- the blanks belong to the stretch before the first slash
  have hstretch : ∀ stretch : List Char, slash ∉ stretch →
      trimmedPieces (front ++ stretch) = trimmedPieces stretch := by
    intro stretch hstretch
    have hboth := List.not_mem_append (Text.slash_not_mem_of_blank h) hstretch
    exact trimmedPieces_of_trim_eq hboth hstretch (Text.trim_of_blank_front h stretch)
  by_cases hslash : slash ∈ cs
  · rcases List.eq_append_cons_of_mem hslash with ⟨first, rest, rfl, hfirst⟩
    rw [← List.append_assoc, trimmedPieces_append_slash, trimmedPieces_append_slash,
      hstretch first hfirst]
  · exact hstretch cs hslash

theorem trimmedPieces_of_blank_back {back : List Char} (h : ∀ c ∈ back, Text.isBlank c)
    (cs : List Char) : trimmedPieces (cs ++ back) = trimmedPieces cs := by
  -- the blanks belong to the stretch behind the last slash
  have hstretch : ∀ stretch : List Char, slash ∉ stretch →
      trimmedPieces (stretch ++ back) = trimmedPieces stretch := by
    intro stretch hstretch
    have hboth := List.not_mem_append hstretch (Text.slash_not_mem_of_blank h)
    exact trimmedPieces_of_trim_eq hboth hstretch (Text.trim_of_blank_back h stretch)
  by_cases hslash : slash ∈ cs
  · rcases List.eq_append_cons_of_mem (List.mem_reverse.2 hslash) with ⟨last, rest, hreverse, hlast⟩
    have hcs : cs = rest.reverse ++ slash :: last.reverse := by
      simpa using congrArg List.reverse hreverse
    rw [hcs, List.append_assoc, List.cons_append, trimmedPieces_append_slash,
      trimmedPieces_append_slash, hstretch last.reverse (by simpa using hlast)]
  · exact hstretch cs hslash

theorem ofText_of_trimmedPieces_eq {raw other : String}
    (h : trimmedPieces raw.toList = trimmedPieces other.toList) : ofText raw = ofText other := by
  apply Path.ext
  show (trimmedPieces raw.toList).map String.ofList = (trimmedPieces other.toList).map String.ofList
  rw [h]

end Path

/-! ## More blanks in a definition -/

/-- A definition is another one with more blanks: in front of it, behind it, or between its method
and what follows. -/
inductive AddsBlanks (text : String) : String → Prop where
  | front (blanks : String) (h : ∀ c ∈ blanks.toList, Text.isBlank c) :
      AddsBlanks text (blanks ++ text)
  | back (blanks : String) (h : ∀ c ∈ blanks.toList, Text.isBlank c) :
      AddsBlanks text (text ++ blanks)
  | inside (front method gap wider rest : String) (htext : text = front ++ method ++ gap ++ rest)
      (hfront : ∀ c ∈ front.toList, Text.isBlank c) (hmethod : method ≠ "")
      (hfree : ∀ c ∈ method.toList, Text.isBlank c = false) (hgap : gap ≠ "")
      (hmore : List.Sublist gap.toList wider.toList)
      (hwider : ∀ c ∈ wider.toList, Text.isBlank c) :
      AddsBlanks text (front ++ method ++ wider ++ rest)

theorem splitDefinition_of_trim_eq {text other : String}
    (h : Text.trim text.toList = Text.trim other.toList) :
    splitDefinition text = splitDefinition other := by
  rw [splitDefinition, splitDefinition, h]

/-- A text that consists of blanks, a method, blanks, and a rest that is not blank has this method,
and the path of the rest. -/
theorem exists_hasParts {front method gap rest : String}
    (hfront : ∀ c ∈ front.toList, Text.isBlank c) (hmethod : method ≠ "")
    (hfree : ∀ c ∈ method.toList, Text.isBlank c = false) (hgap : gap ≠ "")
    (hblank : ∀ c ∈ gap.toList, Text.isBlank c)
    (hrest : ∃ c ∈ rest.toList, Text.isBlank c = false) :
    ∃ path, HasParts (front ++ method ++ gap ++ rest) method path ∧
      Path.ofText path = Path.ofText rest := by
  rcases Text.exists_trimEnd_append rest.toList with ⟨back, hback, hbackBlank⟩
  have hlast := Text.getLast?_trimEnd rest.toList
  generalize Text.trimEnd rest.toList = inner at hback hlast
  have hinner : inner ≠ [] := by
    rintro rfl
    rcases hrest with ⟨c, hc, hno⟩
    rw [hback] at hc
    rw [hbackBlank c hc] at hno
    cases hno
  rcases List.exists_cons_of_ne_nil (String.toList_eq_nil_iff.not.2 hgap) with ⟨c, others, hc⟩
  rw [hc, List.forall_mem_cons] at hblank
  refine ⟨String.ofList (others ++ inner), ⟨⟨c, hblank.1, ?_⟩, hfree⟩, ?_⟩
  · refine ⟨⟨front.toList, back, by simp [hc, hback], hfront, hbackBlank⟩, ?_, ?_⟩
    · -- the text begins with the method
      rcases List.exists_cons_of_ne_nil (String.toList_eq_nil_iff.not.2 hmethod) with ⟨d, ds, hd⟩
      rw [hd, List.forall_mem_cons] at hfree
      simpa [hd] using hfree.1
    · -- and ends with the rest
      have hall : method.toList ++ c :: (String.ofList (others ++ inner)).toList =
          method.toList ++ c :: others ++ inner := by simp
      rw [hall, List.getLast?_append_of_ne_nil _ hinner]
      exact hlast
  · apply Path.ofText_of_trimmedPieces_eq
    rw [String.toList_ofList, hback, Path.trimmedPieces_of_blank_front hblank.2,
      Path.trimmedPieces_of_blank_back hbackBlank]

/-- A text that consists of blanks, a method, and blanks has no parts. -/
theorem splitDefinition_of_blank_rest {front method rest : String}
    (hfront : ∀ c ∈ front.toList, Text.isBlank c)
    (hfree : ∀ c ∈ method.toList, Text.isBlank c = false)
    (hrest : ∀ c ∈ rest.toList, Text.isBlank c) :
    splitDefinition (front ++ method ++ rest) = none := by
  have htrim : Text.trim (front ++ method ++ rest).toList = Text.trim method.toList := by
    rw [String.toList_append, String.toList_append, Text.trim_of_blank_back hrest,
      Text.trim_of_blank_front hfront]
  rw [splitDefinition_eq_none_iff, htrim]
  intro c hc
  exact hfree c ((Text.trim_isInfix _).mem hc)

/-- More blanks in a definition that can be read leave what it stands for. -/
theorem AddsBlanks.readDefinition_eq {text more : String} (h : AddsBlanks text more)
    {content : Method × Path} (hread : readDefinition text = .ok content) :
    readDefinition more = .ok content := by
  rcases content with ⟨m, p⟩
  rw [readDefinition_eq_ok_iff] at hread ⊢
  rcases hread with ⟨method, path, hparts, hparse, rfl⟩
  rw [← splitDefinition_eq_some_iff] at hparts
  cases h with
  | front blanks hblanks =>
    refine ⟨method, path, ?_, hparse, rfl⟩
    rw [← splitDefinition_eq_some_iff, ← hparts]
    apply splitDefinition_of_trim_eq
    rw [String.toList_append, Text.trim_of_blank_front hblanks]
  | back blanks hblanks =>
    refine ⟨method, path, ?_, hparse, rfl⟩
    rw [← splitDefinition_eq_some_iff, ← hparts]
    apply splitDefinition_of_trim_eq
    rw [String.toList_append, Text.trim_of_blank_back hblanks]
  | inside front own gap wider rest htext hfront hown hfree hgap hmore hwider =>
    subst htext
    have hgapBlank : ∀ c ∈ gap.toList, Text.isBlank c := by
      intro c hc
      exact hwider c (hmore.mem hc)
    have hwiderNe : wider ≠ "" := by
      rintro rfl
      exact hgap (String.toList_eq_nil_iff.1 (List.sublist_nil.1 hmore))
    by_cases hrest : ∃ c ∈ rest.toList, Text.isBlank c = false
    · -- both texts have this method, and paths that stand for the same
      rcases exists_hasParts hfront hown hfree hgap hgapBlank hrest with ⟨old, hold, hsame⟩
      rcases exists_hasParts hfront hown hfree hwiderNe hwider hrest with ⟨new, hnew, hsame'⟩
      rw [← splitDefinition_eq_some_iff, hparts, Option.some.injEq, Prod.mk.injEq] at hold
      rcases hold with ⟨rfl, rfl⟩
      exact ⟨_, new, hnew, hparse, hsame.trans hsame'.symm⟩
    · have hblank : ∀ c ∈ (gap ++ rest).toList, Text.isBlank c := by
        rw [String.toList_append, List.forall_mem_append]
        refine ⟨hgapBlank, ?_⟩
        intro c hc
        by_contra hno
        exact hrest ⟨c, hc, by simpa using hno⟩
      have hnone := splitDefinition_of_blank_rest hfront hfree hblank
      rw [← String.append_assoc, hparts] at hnone
      cases hnone

/-- More blanks in a definition, added any number of times. -/
theorem readDefinition_eq_of_blanks {text more : String}
    (h : Relation.ReflTransGen AddsBlanks text more) {content : Method × Path}
    (hread : readDefinition text = .ok content) : readDefinition more = .ok content := by
  induction h with
  | refl => exact hread
  | tail _ hadds ih => exact hadds.readDefinition_eq ih

/-! ## Runs -/

namespace Router

/-- More blanks in definitions without a fault do not change what is registered, or recorded. -/
theorem registerTexts_of_blanks (registry : Registry Unit) {texts padded : List String}
    (hnone : ∀ text ∈ texts, ∀ fault, ¬ HasFault text fault)
    (h : List.Forall₂ (Relation.ReflTransGen AddsBlanks) texts padded) :
    (ofRegistry registry).registerTexts padded = (ofRegistry registry).registerTexts texts := by
  induction h generalizing registry with
  | nil => rfl
  | @cons text more texts padded hadds _ ih =>
    rw [List.forall_mem_cons] at hnone
    rcases exists_readDefinition_eq_ok_iff.2 hnone.1 with ⟨⟨m, p⟩, hread⟩
    rw [registerTexts_cons_of_ok registry hread,
      registerTexts_cons_of_ok registry (readDefinition_eq_of_blanks hadds hread), ih _ hnone.2]

end Router

/-- The outcome of a run whose definitions have no fault is the same for definitions with more
blanks. -/
theorem Command.outcome_of_blanks (command : Command) (write : EventWriter) {padded : List String}
    (hnone : ∀ text ∈ command.definitions, ∀ fault, ¬ HasFault text fault)
    (h : List.Forall₂ (Relation.ReflTransGen AddsBlanks) command.definitions padded) :
    { command with definitions := padded }.outcome write = command.outcome write := by
  have hrun : { command with definitions := padded }.run = command.run := by
    rw [run, run, Router.empty, Router.registerTexts_of_blanks _ hnone h]
    rfl
  rw [outcome, outcome, hrun]
  rfl

end Routing
