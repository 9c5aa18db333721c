import Routing.Proofs.Descent.Matches
import Routing.Proofs.Plan.Execution
import Routing.Proofs.Session.Coherence

/-!
# The calls of a plan

A request that a plan answers is a chain of calls. The routine of the method is entered first. Every
routine reads one piece, captures it or not, and hands over to the routine that follows, and the
last one gives the hits. What a routine takes from the captured pieces was chosen when the plan was
compiled, from the depths at which the compiler went through wildcards.

* `Call` — a routine that has been entered.
* `Call.hits_of_next?`, `Call.hits_of_next?_eq_none` — a call gives what the next one gives, or
  its own endings when none follows.
* `Plan.Enters` — the calls of a request.
* `Call.IsAt` — the invariant: the routine is that of a node, compiled with the depths of the
  wildcards on the way to it, and the captured pieces are those of the URL at these depths.
* `accesses_in_range` — every number that a descent looks up has a route, and every place where a
  routine looks for a value has been filled.
-/

namespace Routing

variable {H : Type}

/-! ## Calls -/

/-- The pieces that are captured on an edge. -/
def Edge.captures (piece : String) : Edge → List String
  | .literal _ => []
  | .wildcard => [piece]

/-- The routine that a choice hands over to for a piece, and the edge that leads to it. -/
def Choice.branch? (piece : String) : Choice → Option (Edge × Routine)
  | .stop => none
  | .capture endings below => some (.wildcard, ⟨endings, below⟩)
  | .test text endings below otherwise =>
    if piece = text then some (.literal text, ⟨endings, below⟩) else otherwise.branch? piece

/-- A routine that has been entered, with a cursor and the pieces captured until then. -/
structure Call where
  routine : Routine
  cursor : Url.Cursor
  captured : List String

namespace Call

/-- What the call gives. -/
def hits (call : Call) : Option (List Hit) :=
  enter call.routine.endings call.routine.choice.isStop call.routine.choice.go call.cursor
    call.captured

/-- What the endings of the routine give, if the URL is at its end. -/
def ownHits (call : Call) : Option (List Hit) :=
  if call.cursor.atEnd then hitsOf call.routine.endings call.captured else none

/-- The call that follows, if the routine hands over to another one, and the edge that leads there. -/
def next? (call : Call) : Option (Edge × Call) :=
  call.cursor.next.1.bind fun piece =>
    (call.routine.choice.branch? piece).map fun (e, routine) =>
      (e, ⟨routine, call.cursor.next.2, call.captured ++ e.captures piece⟩)

/-- The calls that follow on a call, each behind the edges that lead there. -/
inductive LeadsTo (first : Call) : List Edge → Call → Prop where
  | start : LeadsTo first [] first
  | step {edges : List Edge} {call next : Call} {e : Edge} (h : LeadsTo first edges call)
      (hnext : call.next? = some (e, next)) : LeadsTo first (edges ++ [e]) next

end Call

/-- The calls of a request: the routine of the method is entered at the start of the URL, and the
others follow. -/
def Plan.Enters (plan : Plan) (method url : String) (edges : List Edge) (call : Call) : Prop :=
  ∃ routine, plan.routine? method = some routine ∧
    Call.LeadsTo ⟨routine, .start url, []⟩ edges call

/-! ## The result of a call -/

/-- A choice gives what the routine gives that it hands over to. -/
theorem Choice.go_eq_branch? (choice : Choice) (piece : String) (cursor : Url.Cursor)
    (captured : List String) :
    choice.go piece cursor captured =
      (choice.branch? piece).bind fun (e, routine) =>
        Call.hits ⟨routine, cursor, captured ++ e.captures piece⟩ := by
  induction choice with
  | stop => rfl
  | capture endings below => rfl
  | test text endings below otherwise _ ih =>
    by_cases hpiece : piece = text
    · simp [Choice.go, Choice.branch?, hpiece, Edge.captures, Call.hits]
    · simp [Choice.go, Choice.branch?, hpiece, ih]

namespace Call

theorem next?_eq_some_iff {call next : Call} {e : Edge} :
    call.next? = some (e, next) ↔
      ∃ piece routine, call.cursor.next.1 = some piece ∧
        call.routine.choice.branch? piece = some (e, routine) ∧
        next = ⟨routine, call.cursor.next.2, call.captured ++ e.captures piece⟩ := by
  rw [next?, Option.bind_eq_some_iff]
  constructor
  · rintro ⟨piece, hpiece, hfollows⟩
    rcases Option.map_eq_some_iff.1 hfollows with ⟨⟨edge, routine⟩, hbranch, heq⟩
    cases heq
    exact ⟨piece, routine, hpiece, hbranch, rfl⟩
  · rintro ⟨piece, routine, hpiece, hbranch, rfl⟩
    exact ⟨piece, hpiece, Option.map_eq_some_iff.2 ⟨(e, routine), hbranch, rfl⟩⟩

/-- Before the end of the URL a call gives what its choice gives. -/
theorem hits_of_left_cons {call : Call} {piece : String} {pieces : List String}
    (h : call.cursor.left = piece :: pieces) :
    call.hits = (call.routine.choice.branch? piece).bind fun (e, routine) =>
      hits ⟨routine, call.cursor.next.2, call.captured ++ e.captures piece⟩ := by
  rw [hits, enter_of_left_cons _ _ h Choice.go_of_isStop, Choice.go_eq_branch?]

/-- A call that hands over gives what the next one gives. -/
theorem hits_of_next? {call next : Call} {e : Edge} (h : call.next? = some (e, next)) :
    call.hits = next.hits := by
  rcases next?_eq_some_iff.1 h with ⟨piece, routine, hpiece, hbranch, rfl⟩
  rw [call.cursor.next_of_left.1] at hpiece
  rcases List.head?_eq_some_iff.1 hpiece with ⟨pieces, hleft⟩
  rw [hits_of_left_cons hleft, hbranch, Option.bind_some]

/-- A call that does not hand over gives its own endings, or nothing before the end of the URL. -/
theorem hits_of_next?_eq_none {call : Call} (h : call.next? = none) :
    call.hits = call.ownHits := by
  cases hleft : call.cursor.left with
  | nil =>
    have hend : call.cursor.atEnd = true := call.cursor.atEnd_eq_true_iff.2 hleft
    rw [ownHits, if_pos hend]
    exact enter_of_left_nil _ _ _ _ hleft
  | cons piece pieces =>
    have hend : ¬ call.cursor.atEnd = true := by
      rw [call.cursor.atEnd_eq_true_iff, hleft]
      exact List.cons_ne_nil _ _
    have hpiece : call.cursor.next.1 = some piece := by
      rw [call.cursor.next_of_left.1, hleft]
      rfl
    rw [next?, hpiece, Option.bind_some, Option.map_eq_none_iff] at h
    rw [hits_of_left_cons hleft, h, ownHits, if_neg hend]
    rfl

/-- All calls that follow on a call give the same. -/
theorem LeadsTo.hits_eq {first call : Call} {edges : List Edge} (h : first.LeadsTo edges call) :
    first.hits = call.hits := by
  induction h with
  | start => rfl
  | step _ hnext ih => exact ih.trans (hits_of_next? hnext)

/-- Behind every call there is a last one. -/
theorem LeadsTo.exists_last {first call : Call} {edges : List Edge} (h : first.LeadsTo edges call) :
    ∃ edges last, first.LeadsTo edges last ∧ last.next? = none := by
  -- every call has one piece less before it than the call that led to it
  generalize hleft : call.cursor.left = pieces
  induction pieces generalizing call edges with
  | nil =>
    have hnone : call.next? = none := by
      rw [next?, call.cursor.next_of_left.1, hleft]
      rfl
    exact ⟨edges, call, h, hnone⟩
  | cons piece pieces ih =>
    cases hnext : call.next? with
    | none => exact ⟨edges, call, h, hnext⟩
    | some following =>
      rcases following with ⟨e, next⟩
      have hbehind : next.cursor.left = pieces := by
        rcases next?_eq_some_iff.1 hnext with ⟨_, _, -, -, rfl⟩
        rw [call.cursor.next_of_left.2, hleft, List.tail_cons]
      exact ih (h.step hnext) hbehind

end Call

/-! ## The routine of a node -/

/-- The depths at which edges go through a wildcard, in ascending order. -/
def wildcardDepths (edges : List Edge) : List Nat :=
  (List.range edges.length).filter (edges[·]? = some .wildcard)

/-- The routine of a node that lies at some depth, behind wildcards at the given depths. -/
def Node.routineAt (routes : List (Route H)) (node : Node) (depth : Nat) (depths : List Nat) :
    Routine :=
  ⟨endingsOf routes depths node.entry, node.branches.compile routes depth depths⟩

theorem wildcardDepths_concat (edges : List Edge) (e : Edge) :
    wildcardDepths (edges ++ [e]) =
      wildcardDepths edges ++ if e = .wildcard then [edges.length] else [] := by
  have hfront : (List.range edges.length).filter ((edges ++ [e])[·]? = some .wildcard) =
      wildcardDepths edges := by
    apply List.filter_congr
    intro i hi
    rw [List.getElem?_append_left (List.mem_range.1 hi)]
  rw [wildcardDepths, List.length_append, List.length_singleton, List.range_succ,
    List.filter_append, hfront]
  by_cases he : e = .wildcard <;> simp [he]

theorem length_wildcardDepths (edges : List Edge) :
    (wildcardDepths edges).length = edges.count .wildcard := by
  induction edges using List.reverseRecOn with
  | nil => rfl
  | append_singleton edges e ih =>
    rw [wildcardDepths_concat, List.length_append, ih, List.count_append]
    by_cases he : e = .wildcard <;> simp [he]

/-- The routine that a choice hands over to is that of a child, compiled with one depth more behind
a wildcard. -/
theorem exists_child_of_branch? {routes : List (Route H)} {node : Node} {depth : Nat}
    {depths : List Nat} {piece : String} {e : Edge} {routine : Routine}
    (h : (node.branches.compile routes depth depths).branch? piece = some (e, routine)) :
    (e = .literal piece ∨ e = .wildcard) ∧ ∃ child, node.child? e = some child ∧
      routine = child.routineAt routes (depth + 1)
        (depths ++ if e = .wildcard then [depth] else []) := by
  rcases node with ⟨entry, branches⟩
  induction branches with
  | nil => cases h
  | wildcard own below =>
    cases h
    exact ⟨.inr rfl, ⟨own, below⟩, rfl, rfl⟩
  | literal text own below rest _ ih =>
    rw [Branches.compile, Choice.branch?] at h
    by_cases hpiece : piece = text
    · rw [if_pos hpiece] at h
      cases h
      refine ⟨.inl (by rw [hpiece]), ⟨own, below⟩, ?_, ?_⟩
      · simp [Node.child?, Branches.branch?, Branches.literal?]
      · simp [Node.routineAt]
    · rw [if_neg hpiece] at h
      rcases ih h with ⟨he, child, hchild, hroutine⟩
      refine ⟨he, child, ?_, hroutine⟩
      rw [← hchild]
      -- the branch lies among the others, since its edge is not the literal of this one
      rcases he with rfl | rfl
      · simp [Node.child?, Branches.branch?, Branches.literal?, Ne.symm hpiece]
      · rfl

/-- The place of a slot is one of those that the depths have. -/
theorem place_lt_of_mem_endingsOf {routes : List (Route H)} {depths : List Nat} {entry : Entry}
    {ending : Ending} (hending : ending ∈ endingsOf routes depths entry) {slot : Slot}
    (hslot : slot ∈ ending.slots) : slot.place < depths.length := by
  rcases List.mem_map.1 hending with ⟨id, -, rfl⟩
  dsimp only at hslot
  cases hroute : routes[id]? with
  | none =>
    rw [hroute] at hslot
    cases hslot
  | some route =>
    rw [hroute] at hslot
    rcases List.mem_filterMap.1 hslot with ⟨⟨p, index⟩, -, hplace⟩
    rcases Option.map_eq_some_iff.1 hplace with ⟨place, hfound, rfl⟩
    rcases List.idxOf?_eq_some_iff.1 hfound with ⟨hlt, -⟩
    exact hlt

/-! ## The invariant -/

/-- A call has come to a node, through some edges from the root and along the pieces of a URL.

* Its routine is that of the node, with the depths at which the edges go through a wildcard.
* Its cursor has read one piece for each edge.
* The captured pieces are those at these depths, one for each of them. -/
structure Call.IsAt (routes : List (Route H)) (root : Node) (pieces : List String)
    (edges : List Edge) (node : Node) (call : Call) : Prop where
  reached : root.at? edges = some node
  routine : call.routine = node.routineAt routes edges.length (wildcardDepths edges)
  left : call.cursor.left = pieces.drop edges.length
  captured : call.captured.map some = (wildcardDepths edges).map (pieces[·]?)

namespace Call

variable {routes : List (Route H)} {root node : Node} {edges : List Edge}

theorem isAt_start (routes : List (Route H)) (root : Node) (url : String) :
    IsAt routes root (Url.pieces url) [] root ⟨root.compile routes, .start url, []⟩ :=
  ⟨rfl, rfl, rfl, rfl⟩

/-- A call that hands over comes to a child, and has captured the piece behind a wildcard. -/
theorem IsAt.next {pieces : List String} {call next : Call} {e : Edge}
    (h : call.IsAt routes root pieces edges node) (hnext : call.next? = some (e, next)) :
    ∃ child, next.IsAt routes root pieces (edges ++ [e]) child := by
  rcases next?_eq_some_iff.1 hnext with ⟨piece, routine, hpiece, hbranch, rfl⟩
  rw [h.routine] at hbranch
  rcases exists_child_of_branch? hbranch with ⟨-, child, hchild, hroutine⟩
  have hread : pieces[edges.length]? = some piece := by
    rw [← hpiece, call.cursor.next_of_left.1, h.left, List.head?_drop]
  refine ⟨child, ?_⟩
  constructor
  case reached => rw [Node.at?_concat, h.reached, Option.bind_some, hchild]
  case routine => rw [hroutine, wildcardDepths_concat, List.length_append, List.length_singleton]
  case left =>
    show call.cursor.next.2.left = _
    rw [call.cursor.next_of_left.2, h.left, List.tail_drop, List.length_append,
      List.length_singleton]
  case captured =>
    rw [wildcardDepths_concat, List.map_append, List.map_append, h.captured]
    congr 1
    cases e with
    | literal text => rfl
    | wildcard => simp [Edge.captures, hread]

theorem IsAt.leadsTo {pieces : List String} {first call : Call} {behind : List Edge}
    (h : first.IsAt routes root pieces [] root) (hleads : first.LeadsTo behind call) :
    ∃ node, call.IsAt routes root pieces behind node := by
  induction hleads with
  | start => exact ⟨root, h⟩
  | step _ hnext ih =>
    rcases ih with ⟨node, hnode⟩
    exact hnode.next hnext

/-- A call has captured one piece for every wildcard on the way. -/
theorem IsAt.length_captured {pieces : List String} {call : Call}
    (h : call.IsAt routes root pieces edges node) :
    call.captured.length = (wildcardDepths edges).length := by
  simpa using congrArg List.length h.captured

theorem IsAt.getElem?_captured {pieces : List String} {call : Call}
    (h : call.IsAt routes root pieces edges node) (j : Nat) :
    call.captured[j]? = (wildcardDepths edges)[j]?.bind (pieces[·]?) := by
  have hplace : (call.captured.map some)[j]? = ((wildcardDepths edges).map (pieces[·]?))[j]? := by
    rw [h.captured]
  rw [List.getElem?_map, List.getElem?_map] at hplace
  cases hdepth : (wildcardDepths edges)[j]? with
  | none =>
    rw [hdepth] at hplace
    simpa using hplace
  | some depth =>
    rw [hdepth] at hplace
    rcases Option.map_eq_some_iff.1 hplace with ⟨value, hvalue, hpiece⟩
    rw [hvalue, hpiece]
    rfl

theorem IsAt.place_lt {pieces : List String} {call : Call}
    (h : call.IsAt routes root pieces edges node) {ending : Ending}
    (hending : ending ∈ call.routine.endings) {slot : Slot} (hslot : slot ∈ ending.slots) :
    slot.place < call.captured.length := by
  rw [h.routine] at hending
  rw [h.length_captured]
  exact place_lt_of_mem_endingsOf hending hslot

end Call

/-! ## All lookups -/

namespace Plan

/-- Every call of a request has come to a node in the tree of its method. -/
theorem Enters.isAt {routes : List (Route H)} {forest : Forest} {method url : String}
    {edges : List Edge} {call : Call}
    (h : (Plan.compile routes forest).Enters method url edges call) :
    ∃ m root node, m.token = method ∧ forest.tree? m = some root ∧
      call.IsAt routes root (Url.pieces url) edges node := by
  rcases h with ⟨routine, hroutine, hleads⟩
  rw [routine?_compile] at hroutine
  rcases Option.map_eq_some_iff.1 hroutine with ⟨root, htree, rfl⟩
  rcases Option.bind_eq_some_iff.1 htree with ⟨m, hm, hroot⟩
  rcases (Call.isAt_start routes root url).leadsTo hleads with ⟨node, hnode⟩
  exact ⟨m, root, node, Method.ofToken?_eq_some_iff.1 hm, hroot, hnode⟩

/-- A request is answered with what any of its calls gives. -/
theorem Enters.matches?_eq {K : Type} {plan : Plan} {method url : String} {edges : List Edge}
    {call : Call} (h : plan.Enters method url edges call) (run : List (Route K)) :
    plan.matches? run method url = call.hits.bind fun hits => hits.mapM (·.toMatch? run) := by
  rcases h with ⟨routine, hroutine, hleads⟩
  rw [matches?, hroutine, ← hleads.hits_eq]
  rfl

/-- Among the calls of a request there is a last one, which hands over to none. -/
theorem exists_last_of_routine? {plan : Plan} {method url : String} {routine : Routine}
    (h : plan.routine? method = some routine) :
    ∃ edges last, plan.Enters method url edges last ∧ last.next? = none := by
  have hstart : Call.LeadsTo ⟨routine, .start url, []⟩ [] ⟨routine, .start url, []⟩ := .start
  rcases hstart.exists_last with ⟨edges, last, hleads, hnone⟩
  exact ⟨edges, last, ⟨routine, h, hleads⟩, hnone⟩

end Plan

/-- Lookups while a request is answered do not fail. In every state of a router the numbers that a
descent finds at its end are those of registered routes. With a plan, which may be made from three
unrelated registries, the request has the result of all its calls, the last of which gives its own
endings. Every call has come to a node, and has captured one piece for each wildcard on the way,
namely the one at its depth. The routine of the node was compiled with these depths, so every place
where it looks for a value is one that has been filled. -/
theorem accesses_in_range {F G K : Type} (operations : List (Operation F)) (tree : Registry G)
    (compiled : Registry H) (run : Registry K) (method url : String) :
    let router := Router.after operations
    let plan := Plan.compile compiled.routes (.ofRoutes tree.routes)
    (∀ last visits, router.needForest.value.descend method url = some (last, visits) →
      ∀ id ∈ last.entry.routes, id < router.routes.length) ∧
    (∀ routine, plan.routine? method = some routine →
      ∃ edges last, plan.Enters method url edges last ∧ last.next? = none ∧
        last.hits = last.ownHits) ∧
    ∀ edges call, plan.Enters method url edges call →
      plan.matches? run.routes method url =
        (call.hits.bind fun hits => hits.mapM (·.toMatch? run.routes)) ∧
      ∃ m root node, m.token = method ∧ (Forest.ofRoutes tree.routes).tree? m = some root ∧
        root.at? edges = some node ∧
        call.routine = node.routineAt compiled.routes edges.length (wildcardDepths edges) ∧
        call.captured.length = edges.count .wildcard ∧
        (∀ j : Nat, call.captured[j]? =
          (wildcardDepths edges)[j]?.bind fun depth => (Url.pieces url)[depth]?) ∧
        ∀ ending ∈ call.routine.endings, ∀ slot ∈ ending.slots,
          slot.place < call.captured.length := by
  intro router plan
  refine ⟨?_, ?_, ?_⟩
  · intro last visits hdescend id hid
    rw [Router.value_needForest (Router.coherent_after operations)] at hdescend
    rw [Forest.routes_of_descend hdescend] at hid
    rcases List.mem_map.1 hid with ⟨r, hr, rfl⟩
    have hown := (Forest.mem_foundBy.1 hr).1
    exact router.registry.id_lt_length (mem_routesFor_iff.1 hown).1
  · intro routine hroutine
    rcases Plan.exists_last_of_routine? hroutine with ⟨edges, last, henters, hnone⟩
    exact ⟨edges, last, henters, hnone, Call.hits_of_next?_eq_none hnone⟩
  · intro edges call henters
    refine ⟨henters.matches?_eq run.routes, ?_⟩
    rcases henters.isAt with ⟨m, root, node, htoken, htree, hat⟩
    refine ⟨m, root, node, htoken, htree, hat.reached, hat.routine, ?_, hat.getElem?_captured, ?_⟩
    · rw [hat.length_captured, length_wildcardDepths]
    · intro ending hending slot hslot
      exact hat.place_lt hending hslot

end Routing
