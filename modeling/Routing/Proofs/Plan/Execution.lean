import Routing.Plan.Compile
import Routing.Plan.Run
import Routing.Proofs.Descent.Visits
import Routing.Proofs.Url.Reading

/-!
# Running a plan

A plan goes the way of the descent, whatever tree it was compiled from. The routine of a node reads
with a cursor what a descent reads from a list, takes the same branch, and captures a piece exactly
when the branch is a wildcard. The slots chosen by the compiler therefore find the pieces at the
depths where the descent went through a wildcard.

* `Node.Labelled.enterCompiled_eq` — a routine finds what the descent from its node finds.
* `Plan.matches?_compile` — the matches of a plan, when it was built, compiled and run with routes
  that need not have anything to do with each other.
-/

namespace Routing

variable {H : Type}

/-! ## Entering a routine -/

/-- The hits of some endings, if there are any. -/
def hitsOf (endings : List Ending) (captured : List String) : Option (List Hit) :=
  if endings = [] then none else some (endings.map (·.hit captured))

/-- At the end of the URL a routine gives the routes that end at it. -/
theorem enter_of_left_nil (endings : List Ending) (stops : Bool)
    (go : String → Url.Cursor → List String → Option (List Hit)) {cursor : Url.Cursor}
    (captured : List String) (h : cursor.left = []) :
    enter endings stops go cursor captured = hitsOf endings captured := by
  have hend : cursor.atEnd = true := cursor.atEnd_eq_true_iff.2 h
  have hnone : cursor.next.1 = none := by
    rw [cursor.next_of_left.1, h]
    rfl
  rcases hnext : cursor.next with ⟨piece, behind⟩
  rw [hnext] at hnone
  dsimp only at hnone
  subst hnone
  cases endings with
  | nil => cases stops <;> simp [enter, hitsOf, hnext]
  | cons ending endings => cases stops <;> simp [enter, hitsOf, hnext, hend]

/-- Before the end of the URL a routine goes on with the next piece. -/
theorem enter_of_left_cons (endings : List Ending) {stops : Bool}
    {go : String → Url.Cursor → List String → Option (List Hit)} {cursor : Url.Cursor}
    (captured : List String) {piece : String} {pieces : List String}
    (h : cursor.left = piece :: pieces)
    (hstops : stops = true → ∀ piece cursor captured, go piece cursor captured = none) :
    enter endings stops go cursor captured = go piece cursor.next.2 captured := by
  have hend : cursor.atEnd = false := by
    rw [Bool.eq_false_iff, ne_eq, cursor.atEnd_eq_true_iff, h]
    exact List.cons_ne_nil _ _
  have hsome : cursor.next.1 = some piece := by
    rw [cursor.next_of_left.1, h]
    rfl
  rcases hnext : cursor.next with ⟨first, behind⟩
  rw [hnext] at hsome
  dsimp only at hsome
  subst hsome
  cases stops with
  | false => cases endings <;> simp [enter, hnext]
  | true => cases endings <;> simp [enter, hend, hstops rfl]

theorem Choice.go_of_isStop {choice : Choice} (h : choice.isStop = true) (piece : String)
    (cursor : Url.Cursor) (captured : List String) : choice.go piece cursor captured = none := by
  cases choice with
  | stop => rfl
  | capture endings below => cases h
  | test text endings below otherwise => cases h

/-! ## Captured pieces -/

namespace Visit

/-- The piece of a visit that came through a wildcard. -/
def captured? (visit : Visit) : Option String :=
  if visit.node.via = some .wildcard then some visit.piece else none

/-- The pieces that the visits of a descent capture, with their depths. -/
def captures (depth : Nat) (visits : List Visit) : List (Nat × String) :=
  (visits.zipIdx depth).filterMap fun (visit, i) => visit.captured?.map (i, ·)

theorem captures_cons (depth : Nat) (visit : Visit) (visits : List Visit) :
    captures depth (visit :: visits) =
      (visit.captured?.map (depth, ·)).toList ++ captures (depth + 1) visits := by
  cases hcaptured : visit.captured? <;> simp [captures, hcaptured]

/-- The captured piece of a depth is that of the visit there. -/
theorem lookup_captures (depth : Nat) (visits : List Visit) (i : Nat) :
    (captures depth visits).lookup (depth + i) = visits[i]?.bind captured? := by
  induction visits generalizing depth i with
  | nil => rfl
  | cons visit visits ih =>
    -- what is captured later has a larger depth
    have hlater : ∀ d, d < depth + 1 → (captures (depth + 1) visits).lookup d = none := by
      intro d hd
      rw [List.lookup_eq_none_iff]
      rintro ⟨k, piece⟩ hmem
      rcases List.mem_filterMap.1 hmem with ⟨⟨v, j⟩, hv, hpair⟩
      rcases Option.map_eq_some_iff.1 hpair with ⟨_, -, heq⟩
      cases heq
      have hle : depth + 1 ≤ k := List.le_snd_of_mem_zipIdx hv
      have hne : d ≠ k := by omega
      exact bne_iff_ne.2 hne
    rw [captures_cons, List.lookup_append]
    cases i with
    | zero =>
      rw [Nat.add_zero, hlater depth (by omega), Option.or_none]
      cases hcaptured : visit.captured? <;> simp [hcaptured]
    | succ i =>
      have hrest := ih (depth + 1) i
      rw [show depth + 1 + i = depth + (i + 1) by omega] at hrest
      rw [hrest]
      cases hcaptured : visit.captured? with
      | none => simp
      | some piece =>
        have hne : (depth + (i + 1) == depth) = false := by simp
        simp only [Option.map_some, Option.toList_some, List.lookup_cons, hne, List.lookup_nil,
          Option.none_or, List.getElem?_cons_succ]

end Visit

/-- A descent captures a piece where it goes through a wildcard. -/
theorem captured?_eq_some_iff {node last : Node} {pieces : List String} {visits : List Visit}
    (hnode : node.Labelled) (h : node.descend pieces = some (last, visits)) {i : Nat}
    {value : String} :
    visits[i]?.bind Visit.captured? = some value ↔
      (edgesOf visits)[i]? = some .wildcard ∧ pieces[i]? = some value := by
  rw [← Node.pieces_of_descend h, List.getElem?_map, Node.getElem?_edgesOf hnode h]
  cases visits[i]? with
  | none => simp
  | some visit =>
    by_cases hvia : visit.node.via = some .wildcard <;> simp [Visit.captured?, hvia]

/-! ## A routine follows the descent -/

/-- The routine of a node that lies at some depth, behind wildcards at the given depths. -/
def Node.enterCompiled (routes : List (Route H)) (node : Node) (depth : Nat) (depths : List Nat)
    (cursor : Url.Cursor) (captured : List String) : Option (List Hit) :=
  let choice := node.branches.compile routes depth depths
  enter (endingsOf routes depths node.entry) choice.isStop choice.go cursor captured

/-- A choice hands over to the literal branch for the piece, or captures the piece and hands over
to the wildcard branch. -/
theorem go_compile (routes : List (Route H)) (node : Node) (depth : Nat) (depths : List Nat)
    (piece : String) (cursor : Url.Cursor) (captured : List String) :
    (node.branches.compile routes depth depths).go piece cursor captured =
      match node.child? (.literal piece), node.child? .wildcard with
      | some child, _ => child.enterCompiled routes (depth + 1) depths cursor captured
      | none, some child =>
        child.enterCompiled routes (depth + 1) (depths ++ [depth]) cursor (captured ++ [piece])
      | none, none => none := by
  rcases node with ⟨entry, branches⟩
  induction branches with
  | nil => rfl
  | wildcard own below => rfl
  | literal text own below rest _ ih =>
    by_cases hpiece : piece = text
    · subst hpiece
      simp [Branches.compile, Choice.go, Node.child?, Branches.branch?, Branches.literal?,
        Node.enterCompiled]
    · -- no branch for this text, so the piece goes to one of the other branches
      have hliteral : (⟨entry, .literal text own below rest⟩ : Node).child? (.literal piece) =
          (⟨entry, rest⟩ : Node).child? (.literal piece) := by
        simp [Node.child?, Branches.branch?, Branches.literal?, Ne.symm hpiece]
      have hwildcard : (⟨entry, .literal text own below rest⟩ : Node).child? .wildcard =
          (⟨entry, rest⟩ : Node).child? .wildcard := rfl
      rw [hliteral, hwildcard, ← ih]
      simp [Branches.compile, Choice.go, hpiece]

/-- In a labelled tree a choice takes the step of the descent, and captures the piece exactly when
the visit does. -/
theorem Node.Labelled.go_compile {node : Node} (hnode : node.Labelled) (routes : List (Route H))
    (depth : Nat) (depths : List Nat) (piece : String) (cursor : Url.Cursor)
    (captured : List String) :
    (node.branches.compile routes depth depths).go piece cursor captured =
      (node.step? piece).bind fun child =>
        let new := (Visit.captured? ⟨child, piece⟩).toList
        child.enterCompiled routes (depth + 1) (depths ++ new.map fun _ => depth) cursor
          (captured ++ new) := by
  rw [Routing.go_compile, Node.step?]
  cases hliteral : node.child? (.literal piece) with
  | some child =>
    have hvia := (hnode.of_child? hliteral).1
    simp [Visit.captured?, hvia]
  | none =>
    cases hwildcard : node.child? .wildcard with
    | some child =>
      have hvia := (hnode.of_child? hwildcard).1
      simp [Visit.captured?, hvia]
    | none => rfl

/-- A routine finds what the descent from its node finds. -/
theorem Node.Labelled.enterCompiled_eq {node : Node} (hnode : node.Labelled)
    (routes : List (Route H)) (depth : Nat) (depths : List Nat) (cursor : Url.Cursor)
    (captured : List String) :
    node.enterCompiled routes depth depths cursor captured =
      (node.descend cursor.left).bind fun (last, visits) =>
        let new := Visit.captures depth visits
        hitsOf (endingsOf routes (depths ++ new.map Prod.fst) last.entry)
          (captured ++ new.map Prod.snd) := by
  -- by induction on the pieces that are left: a routine reads one and hands over the cursor
  generalize hleft : cursor.left = pieces
  induction pieces generalizing node depth depths cursor captured with
  | nil => simp [enterCompiled, enter_of_left_nil _ _ _ _ hleft, descend_nil, Visit.captures]
  | cons piece pieces ih =>
    have hbehind : cursor.next.2.left = pieces := by
      rw [cursor.next_of_left.2, hleft, List.tail_cons]
    have hgo : node.enterCompiled routes depth depths cursor captured =
        (node.branches.compile routes depth depths).go piece cursor.next.2 captured :=
      enter_of_left_cons _ _ hleft Choice.go_of_isStop
    rw [hgo, hnode.go_compile, descend]
    cases hstep : node.step? piece with
    | none => rfl
    | some child =>
      rcases hnode.exists_edge_of_step? hstep with ⟨-, -, -, hchild⟩
      simp only [Option.bind_some]
      rw [ih hchild _ _ _ _ hbehind]
      cases child.descend pieces with
      | none => rfl
      | some found =>
        cases hcaptured : Visit.captured? ⟨child, piece⟩ <;>
          simp [Visit.captures_cons, hcaptured]

/-! ## Slots -/

/-- Looking for a depth and taking what was captured at its place is looking the depth up. -/
theorem bind_idxOf?_eq_lookup (captures : List (Nat × String)) (depth : Nat) :
    (((captures.map Prod.fst).idxOf? depth).bind fun place => (captures.map Prod.snd)[place]?) =
      captures.lookup depth := by
  induction captures with
  | nil => rfl
  | cons capture captures ih =>
    rcases capture with ⟨d, piece⟩
    by_cases hd : d = depth
    · subst hd
      simp [List.idxOf?_cons]
    · have hne : (d == depth) = false := beq_false_of_ne hd
      have hne' : (depth == d) = false := beq_false_of_ne (Ne.symm hd)
      rw [List.lookup_cons, hne', ← ih, List.map_cons, List.idxOf?_cons, hne]
      cases (captures.map Prod.fst).idxOf? depth <;> simp

/-- The values of parameters, by their index: the pieces that a descent captured at their positions.
A parameter whose position was not captured has none. -/
def valuesAlong (parameters : List Parameter) (visits : List Visit) : List (Nat × String) :=
  parameters.zipIdx.filterMap fun (p, index) =>
    (visits[p.position]?.bind Visit.captured?).map (index, ·)

/-- The parameters of the route with a number; none without such a route. -/
def parametersOf (routes : List (Route H)) (id : Nat) : List Parameter :=
  match routes[id]? with
  | some route => route.parameters
  | none => []

theorem values_hit (id : Nat) (parameters : List Parameter) (visits : List Visit) :
    ((⟨id, slotsOf parameters ((Visit.captures 0 visits).map Prod.fst)⟩ : Ending).hit
      ((Visit.captures 0 visits).map Prod.snd)).values = valuesAlong parameters visits := by
  -- a parameter has a slot if its depth was captured, and the slot holds what was captured there
  have hslot : ∀ p : Parameter, ∀ index : Nat,
      ((((Visit.captures 0 visits).map Prod.fst).idxOf? p.position).map fun place =>
        (⟨index, place⟩ : Slot)).bind (fun slot =>
          ((Visit.captures 0 visits).map Prod.snd)[slot.place]?.map fun value =>
            (slot.parameter, value)) =
      (visits[p.position]?.bind Visit.captured?).map (index, ·) := by
    intro p index
    have hlookup := Visit.lookup_captures 0 visits p.position
    rw [Nat.zero_add, ← bind_idxOf?_eq_lookup] at hlookup
    rw [← hlookup]
    cases ((Visit.captures 0 visits).map Prod.fst).idxOf? p.position <;> rfl
  simp only [Ending.hit, slotsOf, valuesAlong, List.filterMap_filterMap, hslot]

/-- The hits of a compiled tree: the routes that end where the descent ends. -/
theorem Node.Labelled.hits_compile {root : Node} (hroot : root.Labelled)
    (routes : List (Route H)) (url : String) :
    (root.compile routes).hits url =
      (root.descend (Url.pieces url)).bind fun (last, visits) =>
        if last.entry.routes = [] then none
        else some (last.entry.routes.map fun id => ⟨id, valuesAlong (parametersOf routes id) visits⟩) := by
  have henter := hroot.enterCompiled_eq routes 0 [] (.start url) []
  rw [Url.Cursor.left_start] at henter
  have hhits : (root.compile routes).hits url =
      root.enterCompiled routes 0 [] (.start url) [] := rfl
  rw [hhits, henter]
  congr 1
  funext ⟨last, visits⟩
  have hendings : ∀ depths : List Nat, endingsOf routes depths last.entry =
      last.entry.routes.map fun id => ⟨id, slotsOf (parametersOf routes id) depths⟩ := by
    intro depths
    apply List.map_congr_left
    intro id _
    cases hroute : routes[id]? <;> simp [parametersOf, hroute, slotsOf]
  simp only [List.nil_append, hitsOf, hendings, List.map_eq_nil_iff, List.map_map]
  congr 2
  apply List.map_congr_left
  intro id _
  exact congrArg (Hit.mk id) (values_hit id _ visits)

/-! ## Steps that may fail, along a list -/

/-- The results of a step on a list are its results on the elements, one for each. -/
theorem mapM_eq_some_iff {α β : Type} {f : α → Option β} {as : List α} {bs : List β} :
    as.mapM f = some bs ↔ List.Forall₂ (fun a b => f a = some b) as bs := by
  induction as generalizing bs with
  | nil => simp [eq_comm]
  | cons a as ih =>
    rw [List.mapM_cons, List.forall₂_cons_left_iff]
    constructor
    · intro h
      rcases Option.bind_eq_some_iff.1 h with ⟨b, hb, h⟩
      rcases Option.bind_eq_some_iff.1 h with ⟨rest, hrest, h⟩
      exact ⟨b, rest, hb, ih.1 hrest, (Option.some.inj h).symm⟩
    · rintro ⟨b, rest, hb, hrest, rfl⟩
      simp [hb, ih.2 hrest]

/-- A step fails on a list when it fails on one element. -/
theorem mapM_eq_none_iff {α β : Type} {f : α → Option β} {as : List α} :
    as.mapM f = none ↔ ∃ a ∈ as, f a = none := by
  induction as with
  | nil => simp
  | cons a as ih =>
    rw [List.mapM_cons]
    cases ha : f a with
    | none => simp [ha]
    | some b =>
      cases hrest : as.mapM f with
      | none => simpa [ha] using ih.1 hrest
      | some bs =>
        have hno : ¬ ∃ c ∈ as, f c = none := by
          intro hex
          rw [ih.2 hex] at hrest
          cases hrest
        simpa [ha] using hno

/-! ## A whole plan -/

namespace Plan

/-- The routine for a token is that of the tree of the method with this token. -/
theorem routine?_compile (routes : List (Route H)) (forest : Forest) (token : String) :
    (Plan.compile routes forest).routine? token =
      ((Method.ofToken? token).bind forest.tree?).map (·.compile routes) := by
  rcases forest with ⟨trees⟩
  unfold routine? Plan.compile Forest.tree?
  -- a plan looks for a token and a forest for a method, in lists of the same order
  induction trees with
  | nil => cases Method.ofToken? token <;> rfl
  | cons tree trees ih =>
    rcases tree with ⟨method, root⟩
    by_cases htoken : method.token = token
    · have hmethod := Method.ofToken?_eq_some_iff.2 htoken
      simp [htoken, hmethod]
    · rw [List.map_cons, List.find?_cons_of_neg (by simpa using htoken), ih]
      cases hmethod : Method.ofToken? token with
      | none => rfl
      | some other =>
        have hne : (other == method) = false := by
          apply beq_false_of_ne
          intro hother
          subst hother
          exact htoken (Method.ofToken?_eq_some_iff.1 hmethod)
        simp [List.lookup_cons, hne]

/-- The matches of a plan. The routes that it was compiled with choose the pieces, those that it is
run with name them, and neither have to be the routes of the forest. -/
theorem matches?_compile {K : Type} (compiled : List (Route H)) (run : List (Route K))
    {forest : Forest} (hforest : forest.Labelled) (method url : String) :
    (Plan.compile compiled forest).matches? run method url =
      (forest.descend method url).bind fun (last, visits) =>
        if last.entry.routes = [] then none
        else last.entry.routes.mapM fun id =>
          (⟨id, valuesAlong (parametersOf compiled id) visits⟩ : Hit).toMatch? run := by
  rw [matches?, routine?_compile, Forest.descend]
  cases htree : (Method.ofToken? method).bind forest.tree? with
  | none => rfl
  | some root =>
    rcases Option.bind_eq_some_iff.1 htree with ⟨m, -, hm⟩
    have hroot : root.Labelled := hforest m root hm
    simp only [Option.map_some, Option.bind_some, hroot.hits_compile]
    cases root.descend (Url.pieces url) with
    | none => rfl
    | some found =>
      rcases found with ⟨last, visits⟩
      by_cases hroutes : last.entry.routes = []
      · simp [hroutes]
      · simp [hroutes, List.mapM_map, Function.comp_def]

end Plan

end Routing
