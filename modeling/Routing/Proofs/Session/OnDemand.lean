import Routing.Proofs.Session.Coherence

/-!
# What is made on demand

A router reports when it lacks the trees or the plan that an operation needs. It then makes what it
lacks, in the same operation, and holds it until its routes change. So between two changes of the
routes trees are missing at most once, and so is a plan.

* `Router.eventsIn` — what a part of a session records.
* `Router.events_step` — what one operation records.
* `Router.events_of_treesMissing`, `Router.events_of_planMissing` — operations that report something
  missing make it.
* `ReportsMissing` — what is made is held, so it is reported as missing at most once.
* `Router.missing_once` — what a session reports as missing, and what it records then.
-/

namespace Routing

variable {H : Type}

/-- An operation that leaves a router with trees. -/
def Operation.makesForest : Operation H → Bool
  | .reset | .register _ => false
  | .rebuildForest | .recompilePlan | .answer _ _ | .answerByPlan _ _ => true

/-- An operation that leaves a router with a plan. -/
def Operation.makesPlan : Operation H → Bool
  | .reset | .register _ | .rebuildForest | .answer _ _ => false
  | .recompilePlan | .answerByPlan _ _ => true

/-! ## The events of a part of a session -/

namespace Router

/-- What a session records while it carries out some operations, behind others that came earlier. -/
def eventsIn (earlier operations : List (Operation H)) : List Event :=
  ((after earlier).run operations).events

theorem events_run_cons (router : Router H) (operation : Operation H)
    (operations : List (Operation H)) :
    (router.run (operation :: operations)).events =
      (router.step operation).events ++
        ((router.step operation).value.2.run operations).events := by
  simp [run]

theorem run_append (router : Router H) (front back : List (Operation H)) :
    (router.run (front ++ back)).value.2 = ((router.run front).value.2.run back).value.2 ∧
      (router.run (front ++ back)).events =
        (router.run front).events ++ ((router.run front).value.2.run back).events := by
  induction front generalizing router with
  | nil => exact ⟨rfl, rfl⟩
  | cons operation front ih =>
    rcases ih (router.step operation).value.2 with ⟨hlast, hevents⟩
    refine ⟨hlast, ?_⟩
    rw [List.cons_append, events_run_cons, hevents, events_run_cons, List.append_assoc]
    rfl

theorem after_append (front back : List (Operation H)) :
    after (front ++ back) = ((after front).run back).value.2 :=
  (empty.run_append front back).1

theorem after_concat (front : List (Operation H)) (operation : Operation H) :
    after (front ++ [operation]) = ((after front).step operation).value.2 :=
  after_append front [operation]

/-- A session records what its parts record, one after the other. -/
theorem eventsIn_append (earlier front back : List (Operation H)) :
    eventsIn earlier (front ++ back) =
      eventsIn earlier front ++ eventsIn (earlier ++ front) back := by
  rw [eventsIn, eventsIn, eventsIn, after_append]
  exact ((after earlier).run_append front back).2

theorem eventsIn_singleton (earlier : List (Operation H)) (operation : Operation H) :
    eventsIn earlier [operation] = ((after earlier).step operation).events :=
  List.append_nil _

/-! ## The events of one operation -/

/-- What one operation records. -/
theorem events_step (router : Router H) (operation : Operation H) :
    (router.step operation).events =
      match operation with
      | .reset => []
      | .register d =>
        match Method.parse d.method with
        | .ok method => [.registering method (Path.ofText d.path) router.routes.length]
        | .error _ => []
      | .rebuildForest => router.growForest.events
      | .recompilePlan =>
        router.needForest.events ++ (router.makePlan router.needForest.value).events
      | .answer _ _ => router.needForest.events
      | .answerByPlan _ _ => router.needPlan.events := by
  cases operation with
  | reset => rfl
  | register d =>
    simp only [step]
    cases hmethod : Method.parse d.method with
    | ok method =>
      rw [router.register_of_parse_eq_ok hmethod]
      rfl
    | error cause =>
      rw [router.register_of_parse_eq_error hmethod]
      rfl
  | rebuildForest => simp [step, rebuildForest]
  | recompilePlan => simp [step, recompilePlan]
  | answer method url => simp [step, answer]
  | answerByPlan method url => simp [step, answerByPlan]

/-- Trees that are needed are there, or it is reported that they are missing, and they are built at
once. -/
theorem needForest_cases (router : Router H) :
    router.forest.isSome ∧ router.needForest.events = [] ∨
      router.forest = none ∧ ∃ trees routes nodes,
        router.needForest.events = [.treesMissing, .treesBuilt trees routes nodes] := by
  rw [needForest]
  cases router.forest with
  | some forest => exact Or.inl ⟨rfl, rfl⟩
  | none => exact Or.inr ⟨rfl, _, _, _, rfl⟩

/-- A plan that is needed is there, or it is reported that it is missing, and it is compiled in the
end, from trees that are built before if they are missing too. -/
theorem needPlan_cases (router : Router H) :
    router.plan.isSome ∧ router.needPlan.value.2 = router ∧ router.needPlan.events = [] ∨
      router.plan = none ∧ router.needPlan.value.2.forest.isSome ∧
        router.needPlan.value.2.plan.isSome ∧ ∃ methods routines,
          router.needPlan.events =
            .planMissing :: router.needForest.events ++ [.planCompiled methods routines] := by
  rw [needPlan]
  cases router.plan with
  | some plan => exact Or.inl ⟨rfl, rfl, rfl⟩
  | none => exact Or.inr ⟨rfl, rfl, rfl, _, _, rfl⟩

end Router

/-! ## Operations that report something missing -/

namespace Router

/-- An operation that reports missing trees had none. It builds them next, reports nothing else of
the kind, and leaves the router with trees. -/
theorem events_of_treesMissing {router : Router H} {operation : Operation H}
    (h : .treesMissing ∈ (router.step operation).events) :
    router.forest = none ∧ (router.step operation).value.2.forest.isSome ∧
      ∃ front trees routes nodes back, (router.step operation).events =
          front ++ [.treesMissing, .treesBuilt trees routes nodes] ++ back ∧
        .treesMissing ∉ front ∧ .treesMissing ∉ back := by
  rw [events_step] at h ⊢
  cases operation with
  | reset => simp at h
  | register d => cases hmethod : Method.parse d.method <;> simp [hmethod] at h
  | rebuildForest => simp [growForest, Recorded.record] at h
  | recompilePlan =>
    rcases router.needForest_cases with ⟨-, hevents⟩ | ⟨hnone, trees, routes, nodes, hevents⟩
    · simp [hevents, makePlan, Recorded.record] at h
    · refine ⟨hnone, rfl, [], trees, routes, nodes, _, by rw [hevents]; rfl, ?_⟩
      simp [makePlan, Recorded.record]
  | answer method url =>
    rcases router.needForest_cases with ⟨-, hevents⟩ | ⟨hnone, trees, routes, nodes, hevents⟩
    · simp [hevents] at h
    · exact ⟨hnone, rfl, [], trees, routes, nodes, [], hevents, by simp⟩
  | answerByPlan method url =>
    rcases router.needPlan_cases with ⟨-, -, hplan⟩ | ⟨-, hmade, -, methods, routines, hplan⟩
    · simp [hplan] at h
    · rcases router.needForest_cases with ⟨-, hevents⟩ | ⟨hnone, trees, routes, nodes, hevents⟩
      · simp [hplan, hevents] at h
      · refine ⟨hnone, hmade, [.planMissing], trees, routes, nodes,
          [.planCompiled methods routines], ?_, by simp⟩
        rw [hplan, hevents]
        rfl

/-- An operation that reports a missing plan had none. It compiles one in the end, does nothing
between but build the trees, if they are missing too, and leaves the router with a plan. -/
theorem events_of_planMissing {router : Router H} {operation : Operation H}
    (h : .planMissing ∈ (router.step operation).events) :
    router.plan = none ∧ (router.step operation).value.2.plan.isSome ∧
      ∃ between methods routines, (router.step operation).events =
          .planMissing :: between ++ [.planCompiled methods routines] ∧
        (between = [] ∨ ∃ trees routes nodes,
          between = [.treesMissing, .treesBuilt trees routes nodes]) := by
  have hneed : router.needForest.events = [] ∨ ∃ trees routes nodes,
      router.needForest.events = [.treesMissing, .treesBuilt trees routes nodes] :=
    router.needForest_cases.imp And.right And.right
  have hno : .planMissing ∉ router.needForest.events := by
    rcases hneed with hevents | ⟨trees, routes, nodes, hevents⟩
    · simp [hevents]
    · simp [hevents]
  rw [events_step] at h ⊢
  cases operation with
  | reset => simp at h
  | register d => cases hmethod : Method.parse d.method <;> simp [hmethod] at h
  | rebuildForest => simp [growForest, Recorded.record] at h
  | recompilePlan => simp [hno, makePlan, Recorded.record] at h
  | answer method url => exact absurd h hno
  | answerByPlan method url =>
    rcases router.needPlan_cases with ⟨-, -, hplan⟩ | ⟨hnone, -, hmade, methods, routines, hplan⟩
    · simp [hplan] at h
    · exact ⟨hnone, hmade, _, methods, routines, hplan, hneed⟩

end Router

/-! ## Reported at most once -/

/-- An event that reports that a router lacks something. An operation that reports it does so once
and makes what is missing, and what was made is held as long as the routes stay as they are. -/
structure ReportsMissing (missing : Event) (holds : Router H → Prop) : Prop where
  made : ∀ (router : Router H) (operation : Operation H),
    missing ∈ (router.step operation).events →
      (router.step operation).events.count missing = 1 ∧ ¬ holds router ∧
        holds (router.step operation).value.2
  kept : ∀ (router : Router H) (operation : Operation H), operation.isIdle → holds router →
    holds (router.step operation).value.2

namespace ReportsMissing

variable {missing : Event} {holds : Router H → Prop}

/-- What a router holds is not reported as missing while its routes stay as they are. -/
theorem not_mem_run (h : ReportsMissing missing holds) {router : Router H} (hholds : holds router)
    {operations : List (Operation H)} (hidle : ∀ operation ∈ operations, operation.isIdle) :
    missing ∉ (router.run operations).events := by
  induction operations generalizing router with
  | nil => exact List.not_mem_nil
  | cons operation operations ih =>
    rw [List.forall_mem_cons] at hidle
    rw [Router.events_run_cons, List.mem_append, not_or]
    constructor
    · intro hfirst
      exact (h.made router operation hfirst).2.1 hholds
    · exact ih (h.kept router operation hidle.1 hholds) hidle.2

/-- While the routes stay as they are, the same is not reported as missing twice. -/
theorem count_run_le (h : ReportsMissing missing holds) (router : Router H)
    {operations : List (Operation H)} (hidle : ∀ operation ∈ operations, operation.isIdle) :
    (router.run operations).events.count missing ≤ 1 := by
  induction operations generalizing router with
  | nil => exact Nat.zero_le 1
  | cons operation operations ih =>
    rw [List.forall_mem_cons] at hidle
    rw [Router.events_run_cons, List.count_append]
    by_cases hfirst : missing ∈ (router.step operation).events
    · -- what was missing is held from now on
      rcases h.made router operation hfirst with ⟨hcount, -, hmade⟩
      rw [hcount, List.count_eq_zero.2 (h.not_mem_run hmade hidle.2)]
    · rw [List.count_eq_zero.2 hfirst, Nat.zero_add]
      exact ih _ hidle.2

end ReportsMissing

namespace Router

/-- A registration that is refused leaves the router as it is. -/
theorem step_register_of_isIdle (router : Router H) {d : Definition H}
    (h : (Operation.register d).isIdle) : (router.step (.register d)).value.2 = router := by
  rw [Operation.isIdle] at h
  cases hmethod : Method.parse d.method with
  | ok method => simp [hmethod] at h
  | error cause =>
    rw [step, router.register_of_parse_eq_error hmethod]
    rfl

/-- Once there are trees, they are held as long as the routes stay as they are. -/
theorem forest_isSome_step_of_isIdle {router : Router H} {operation : Operation H}
    (hidle : operation.isIdle) (h : router.forest.isSome) :
    (router.step operation).value.2.forest.isSome := by
  cases operation with
  | reset => cases hidle
  | register d =>
    rw [step_register_of_isIdle router hidle]
    exact h
  | rebuildForest => rfl
  | recompilePlan => rfl
  | answer method url => rfl
  | answerByPlan method url =>
    show router.needPlan.value.2.forest.isSome
    rcases router.needPlan_cases with ⟨-, hsame, -⟩ | ⟨-, hmade, -⟩
    · rw [hsame]
      exact h
    · exact hmade

/-- Once there is a plan, it is held as long as the routes stay as they are. -/
theorem plan_isSome_step_of_isIdle {router : Router H} {operation : Operation H}
    (hidle : operation.isIdle) (h : router.plan.isSome) :
    (router.step operation).value.2.plan.isSome := by
  cases operation with
  | reset => cases hidle
  | register d =>
    rw [step_register_of_isIdle router hidle]
    exact h
  | rebuildForest => exact h
  | recompilePlan => rfl
  | answer method url => exact h
  | answerByPlan method url =>
    show router.needPlan.value.2.plan.isSome
    rcases router.needPlan_cases with ⟨-, hsame, -⟩ | ⟨-, -, hmade, -⟩
    · rw [hsame]
      exact h
    · exact hmade

theorem reportsMissing_trees :
    ReportsMissing .treesMissing fun router : Router H => router.forest.isSome := by
  constructor
  · intro router operation hmissing
    rcases events_of_treesMissing hmissing with
      ⟨hnone, hmade, front, trees, routes, nodes, back, hevents, hfront, hback⟩
    refine ⟨?_, by simp [hnone], hmade⟩
    rw [hevents, List.count_append, List.count_append, List.count_eq_zero.2 hfront,
      List.count_eq_zero.2 hback]
    simp
  · intro router operation hidle hforest
    exact forest_isSome_step_of_isIdle hidle hforest

theorem reportsMissing_plan :
    ReportsMissing .planMissing fun router : Router H => router.plan.isSome := by
  constructor
  · intro router operation hmissing
    rcases events_of_planMissing hmissing with
      ⟨hnone, hmade, between, methods, routines, hevents, hbetween⟩
    refine ⟨?_, by simp [hnone], hmade⟩
    rw [hevents]
    rcases hbetween with rfl | ⟨trees, routes, nodes, rfl⟩
    · simp
    · simp
  · intro router operation hidle hplan
    exact plan_isSome_step_of_isIdle hidle hplan

/-! ## Never behind an operation that made it -/

/-- There are trees behind an operation that makes them. -/
theorem forest_isSome_step {router : Router H} (h : router.Coherent) {operation : Operation H}
    (hmakes : operation.makesForest) : (router.step operation).value.2.forest.isSome := by
  cases operation with
  | reset => cases hmakes
  | register d => cases hmakes
  | rebuildForest => rfl
  | recompilePlan => rfl
  | answer method url => rfl
  | answerByPlan method url =>
    show router.needPlan.value.2.forest.isSome
    rcases router.needPlan_cases with ⟨hplan, hsame, -⟩ | ⟨-, hmade, -⟩
    · -- a plan that was held was compiled from trees, and these are held too
      rw [hsame]
      exact h.forest_of_plan hplan
    · exact hmade

/-- There is a plan behind an operation that makes one. -/
theorem plan_isSome_step (router : Router H) {operation : Operation H}
    (hmakes : operation.makesPlan) : (router.step operation).value.2.plan.isSome := by
  cases operation with
  | reset => cases hmakes
  | register d => cases hmakes
  | rebuildForest => cases hmakes
  | recompilePlan => rfl
  | answer method url => cases hmakes
  | answerByPlan method url =>
    show router.needPlan.value.2.plan.isSome
    rcases router.needPlan_cases with ⟨hplan, hsame, -⟩ | ⟨-, -, hmade, -⟩
    · rw [hsame]
      exact hplan
    · exact hmade

end Router

/-! ## Made at once -/

/-- Trees are built next wherever they are reported as missing. -/
def BuildsAtOnce (events : List Event) : Prop :=
  ∀ i, events[i]? = some .treesMissing →
    ∃ trees routes nodes, events[i + 1]? = some (.treesBuilt trees routes nodes)

theorem buildsAtOnce_of_not_mem {events : List Event} (h : .treesMissing ∉ events) :
    BuildsAtOnce events := by
  intro i hi
  exact absurd (List.mem_of_getElem? hi) h

theorem buildsAtOnce_pair (trees routes nodes : Nat) :
    BuildsAtOnce [.treesMissing, .treesBuilt trees routes nodes] := by
  intro i hi
  rcases i with - | - | i
  · exact ⟨trees, routes, nodes, rfl⟩
  · cases hi
  · cases hi

theorem BuildsAtOnce.append {front back : List Event} (hfront : BuildsAtOnce front)
    (hback : BuildsAtOnce back) : BuildsAtOnce (front ++ back) := by
  intro i hi
  by_cases hlt : i < front.length
  · rw [List.getElem?_append_left hlt] at hi
    rcases hfront i hi with ⟨trees, routes, nodes, hnext⟩
    -- what is built next is recorded in front too
    have hlt' : i + 1 < front.length := (List.getElem?_eq_some_iff.1 hnext).1
    exact ⟨trees, routes, nodes, by rw [List.getElem?_append_left hlt', hnext]⟩
  · rw [List.getElem?_append_right (by omega)] at hi
    rcases hback _ hi with ⟨trees, routes, nodes, hnext⟩
    have hplace : i + 1 - front.length = i - front.length + 1 := by omega
    exact ⟨trees, routes, nodes, by rw [List.getElem?_append_right (by omega), hplace, hnext]⟩

namespace Router

theorem buildsAtOnce_step (router : Router H) (operation : Operation H) :
    BuildsAtOnce (router.step operation).events := by
  by_cases hmissing : .treesMissing ∈ (router.step operation).events
  · rcases events_of_treesMissing hmissing with
      ⟨-, -, front, trees, routes, nodes, back, hevents, hfront, hback⟩
    have hfirst := (buildsAtOnce_of_not_mem hfront).append (buildsAtOnce_pair trees routes nodes)
    rw [hevents]
    exact hfirst.append (buildsAtOnce_of_not_mem hback)
  · exact buildsAtOnce_of_not_mem hmissing

theorem buildsAtOnce_run (router : Router H) (operations : List (Operation H)) :
    BuildsAtOnce (router.run operations).events := by
  induction operations generalizing router with
  | nil => exact buildsAtOnce_of_not_mem List.not_mem_nil
  | cons operation operations ih =>
    rw [events_run_cons]
    exact (router.buildsAtOnce_step operation).append (ih _)

/-! ## Whole sessions -/

/-- What a stretch of a session reports as missing: trees at most once and a plan at most once, and
neither behind an operation of the stretch that made it. -/
structure MissesOnce (earlier stretch : List (Operation H)) : Prop where
  trees : (eventsIn earlier stretch).count .treesMissing ≤ 1
  plan : (eventsIn earlier stretch).count .planMissing ≤ 1
  trees_made : ∀ front operation back, front ++ operation :: back = stretch →
    operation.makesForest → .treesMissing ∉ eventsIn (earlier ++ front ++ [operation]) back
  plan_made : ∀ front operation back, front ++ operation :: back = stretch →
    operation.makesPlan → .planMissing ∉ eventsIn (earlier ++ front ++ [operation]) back

theorem missesOnce_of_isIdle (earlier : List (Operation H)) {stretch : List (Operation H)}
    (hidle : ∀ operation ∈ stretch, operation.isIdle) : MissesOnce earlier stretch := by
  constructor
  · exact reportsMissing_trees.count_run_le (after earlier) hidle
  · exact reportsMissing_plan.count_run_le (after earlier) hidle
  · rintro front operation back rfl hmakes
    rw [List.forall_mem_append, List.forall_mem_cons] at hidle
    rw [eventsIn, after_concat]
    have hforest := forest_isSome_step (coherent_after (earlier ++ front)) hmakes
    exact reportsMissing_trees.not_mem_run hforest hidle.2.2
  · rintro front operation back rfl hmakes
    rw [List.forall_mem_append, List.forall_mem_cons] at hidle
    rw [eventsIn, after_concat]
    have hplan := (after (earlier ++ front)).plan_isSome_step hmakes
    exact reportsMissing_plan.not_mem_run hplan hidle.2.2

/-- An operation that changes the routes needs neither trees nor a plan. -/
theorem not_mem_events_of_change (router : Router H) {operation : Operation H}
    (h : operation.isIdle = false) :
    .treesMissing ∉ (router.step operation).events ∧
      .planMissing ∉ (router.step operation).events := by
  rw [events_step]
  cases operation with
  | reset => simp
  | register d => cases hmethod : Method.parse d.method <;> simp [hmethod]
  | rebuildForest => cases h
  | recompilePlan => cases h
  | answer method url => cases h
  | answerByPlan method url => cases h

/-- What a session records is what its parts record, one after the other. In a part that leaves the
routes as they are, trees are missing at most once and a plan at most once, and neither behind an
operation that made it; the operations that change the routes miss neither. Where trees are missing,
they are built next. Where a plan is missing, the same operation compiles one in the end, and does
nothing between but build the trees, if they are missing too. -/
theorem missing_once (operations : List (Operation H)) :
    (∀ earlier stretch later, earlier ++ stretch ++ later = operations →
      (empty.run operations).events =
        eventsIn [] earlier ++ eventsIn earlier stretch ++ eventsIn (earlier ++ stretch) later ∧
      ((∀ operation ∈ stretch, operation.isIdle) → MissesOnce earlier stretch)) ∧
    (∀ earlier operation later, earlier ++ operation :: later = operations →
      operation.isIdle = false →
      .treesMissing ∉ eventsIn earlier [operation] ∧ .planMissing ∉ eventsIn earlier [operation]) ∧
    BuildsAtOnce (empty.run operations).events ∧
    (∀ earlier operation later, earlier ++ operation :: later = operations →
      .planMissing ∈ eventsIn earlier [operation] →
      ∃ between methods routines, eventsIn earlier [operation] =
          .planMissing :: between ++ [.planCompiled methods routines] ∧
        (between = [] ∨ ∃ trees routes nodes,
          between = [.treesMissing, .treesBuilt trees routes nodes])) := by
  refine ⟨?_, ?_, buildsAtOnce_run empty operations, ?_⟩
  · rintro earlier stretch later rfl
    refine ⟨?_, missesOnce_of_isIdle earlier⟩
    have hparts := eventsIn_append [] (earlier ++ stretch) later
    rw [eventsIn_append [] earlier stretch] at hparts
    exact hparts
  · intro earlier operation later _ hchange
    rw [eventsIn_singleton]
    exact (after earlier).not_mem_events_of_change hchange
  · intro earlier operation later _ hmissing
    rw [eventsIn_singleton] at hmissing ⊢
    exact (events_of_planMissing hmissing).2.2

/-- The first request needs a plan and, for the plan, trees. Behind it neither is missing; what is
asked for is made again all the same. -/
example :
    eventsIn [.register (⟨"GET", "/posts", ()⟩ : Definition Unit)]
        [.answerByPlan "GET" "/posts", .answer "GET" "/", .rebuildForest, .recompilePlan] =
      [.planMissing, .treesMissing, .treesBuilt 1 1 2, .planCompiled 1 2, .treesBuilt 1 1 2,
        .planCompiled 1 2] := by
  decide +kernel

end Router

end Routing
