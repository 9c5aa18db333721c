import Routing.Proofs.Forest.Numbers
import Routing.Proofs.Plan.Counting
import Routing.Proofs.Session.History
import Routing.Proofs.Session.OnDemand

/-!
# The sizes that a session reports

Whenever trees are built, a router reports how many there are, for how many routes and with how many
nodes. Whenever a plan is compiled, it reports how many methods and routines the plan has. All these
sizes are those of the routes that the router holds at the time, and a plan is never compiled before
the trees of these routes have been reported.

* `Registry.treesReport`, `Registry.planReport` — the reports about some routes.
* `Router.treesBuilt_of_mem_step`, `Router.planCompiled_of_events_step` — the reports of one
  operation.
* `Router.ReportsAlike` — while the routes stay as they are all reports of trees are the same, and
  trees that are held have been reported.
* `Router.reported_sizes` — the reports of a whole session.
-/

namespace Routing

variable {H : Type}

/-! ## Reports -/

namespace Registry

/-- What is reported when the trees of the routes are built. -/
def treesReport (registry : Registry H) : Event :=
  let forest := Forest.ofRoutes registry.routes
  .treesBuilt forest.trees.length registry.routes.length forest.nodeCount

/-- What is reported when a plan is compiled from the trees of the routes. -/
def planReport (registry : Registry H) : Event :=
  let forest := Forest.ofRoutes registry.routes
  .planCompiled forest.trees.length forest.nodeCount

end Registry

namespace Router

theorem events_growForest (router : Router H) :
    router.growForest.events = [router.registry.treesReport] := rfl

/-- Trees that are needed are held, or they are built and reported. -/
theorem reports_needForest (router : Router H) :
    router.forest.isSome ∧ router.needForest.events = [] ∨
      router.needForest.events = [.treesMissing, router.registry.treesReport] := by
  rw [needForest]
  cases router.forest with
  | some forest => exact Or.inl ⟨rfl, rfl⟩
  | none => exact Or.inr rfl

/-- A plan has a routine for every node of the trees that it is compiled from. -/
theorem events_makePlan {router : Router H} (h : router.Coherent) :
    (router.makePlan router.needForest.value).events = [router.registry.planReport] := by
  have hroutines : (Plan.compile router.routes (Forest.ofRoutes router.routes)).routines.length =
      (Forest.ofRoutes router.routes).trees.length := by
    rw [Plan.compile, List.length_map]
  rw [value_needForest h]
  show [Event.planCompiled _ _] = _
  rw [hroutines, Plan.routineCount_compile]
  rfl

/-- What is reported when a plan is needed. -/
theorem reports_needPlan {router : Router H} (h : router.Coherent) :
    router.needPlan.value.2 = router ∧ router.needPlan.events = [] ∨
      router.needPlan.events =
        .planMissing :: router.needForest.events ++ [router.registry.planReport] := by
  rw [← events_makePlan h, needPlan]
  cases router.plan with
  | some plan => exact Or.inl ⟨rfl, rfl⟩
  | none => exact Or.inr rfl

/-- Trees are held before they are needed, or they are reported. -/
theorem held_or_reported (router : Router H) :
    router.forest.isSome ∨ router.registry.treesReport ∈ router.needForest.events := by
  rcases router.reports_needForest with ⟨hheld, -⟩ | hevents
  · exact Or.inl hheld
  · exact Or.inr (by simp [hevents])

theorem treesBuilt_of_mem_needForest {router : Router H} {trees routes nodes : Nat}
    (h : .treesBuilt trees routes nodes ∈ router.needForest.events) :
    .treesBuilt trees routes nodes = router.registry.treesReport := by
  rcases router.reports_needForest with ⟨-, hevents⟩ | hevents
  · simp [hevents] at h
  · simpa [hevents] using h

theorem planCompiled_not_mem_needForest (router : Router H) (methods routines : Nat) :
    .planCompiled methods routines ∉ router.needForest.events := by
  rcases router.reports_needForest with ⟨-, hevents⟩ | hevents
  · simp [hevents]
  · simp [hevents, Registry.treesReport]

/-! ## One operation -/

theorem isIdle_of_makesForest {operation : Operation H} (h : operation.makesForest) :
    operation.isIdle := by
  cases operation with
  | reset => cases h
  | register d => cases h
  | rebuildForest => rfl
  | recompilePlan => rfl
  | answer method url => rfl
  | answerByPlan method url => rfl

/-- Trees that an operation reports are those of the routes, and are held behind it. -/
theorem treesBuilt_of_mem_step {router : Router H} (h : router.Coherent)
    {operation : Operation H} {trees routes nodes : Nat}
    (hmem : .treesBuilt trees routes nodes ∈ (router.step operation).events) :
    .treesBuilt trees routes nodes = router.registry.treesReport ∧
      (router.step operation).value.2.forest = some (.ofRoutes router.routes) := by
  have hreport : operation.makesForest ∧
      .treesBuilt trees routes nodes = router.registry.treesReport := by
    rw [events_step] at hmem
    cases operation with
    | reset => simp at hmem
    | register d => cases hmethod : Method.parse d.method <;> simp [hmethod] at hmem
    | rebuildForest => exact ⟨rfl, by simpa [events_growForest] using hmem⟩
    | recompilePlan =>
      rw [events_makePlan h, List.mem_append] at hmem
      rcases hmem with hbuilt | hcompiled
      · exact ⟨rfl, treesBuilt_of_mem_needForest hbuilt⟩
      · simp [Registry.planReport] at hcompiled
    | answer method url => exact ⟨rfl, treesBuilt_of_mem_needForest hmem⟩
    | answerByPlan method url =>
      rcases reports_needPlan h with ⟨-, hevents⟩ | hevents
      · simp [hevents] at hmem
      · have hbuilt : .treesBuilt trees routes nodes ∈ router.needForest.events := by
          simpa [hevents, Registry.planReport] using hmem
        exact ⟨rfl, treesBuilt_of_mem_needForest hbuilt⟩
  refine ⟨hreport.2, ?_⟩
  -- there are trees behind the operation, and they are those of the routes, which have stayed
  rcases coherent_step h operation with ⟨-, hregistry, hcoherent⟩
  rw [router.registry.next_of_isIdle (isIdle_of_makesForest hreport.1)] at hregistry
  rcases Option.isSome_iff_exists.1 (forest_isSome_step h hreport.1) with ⟨forest, hforest⟩
  rw [hforest, hcoherent.forest forest hforest, Router.routes, hregistry]
  rfl

/-- A report of a plan that stands behind no other such report. -/
theorem eq_of_concat_planReport {registry : Registry H} {events front back : List Event}
    {methods routines : Nat} (hnone : .planCompiled methods routines ∉ events)
    (h : events ++ [registry.planReport] = front ++ .planCompiled methods routines :: back) :
    .planCompiled methods routines = registry.planReport ∧ front = events := by
  rcases List.eq_nil_or_concat' back with rfl | ⟨back, last, rfl⟩
  · rcases List.append_inj' h rfl with ⟨hfront, hlast⟩
    exact ⟨(List.singleton_inj.1 hlast).symm, hfront.symm⟩
  · rw [← List.cons_append, ← List.append_assoc] at h
    rcases List.append_inj' h rfl with ⟨hfront, -⟩
    exact absurd (by simp [hfront]) hnone

/-- A plan that an operation reports is that of the routes. Before that the trees were held, or the
operation has reported them. -/
theorem planCompiled_of_events_step {router : Router H} (h : router.Coherent)
    {operation : Operation H} {front back : List Event} {methods routines : Nat}
    (hevents : (router.step operation).events =
      front ++ .planCompiled methods routines :: back) :
    .planCompiled methods routines = router.registry.planReport ∧
      (router.forest.isSome ∨ router.registry.treesReport ∈ front) := by
  have hno := router.planCompiled_not_mem_needForest methods routines
  have hmem : .planCompiled methods routines ∈ (router.step operation).events := by
    simp [hevents]
  rw [events_step] at hevents hmem
  cases operation with
  | reset => simp at hmem
  | register d => cases hmethod : Method.parse d.method <;> simp [hmethod] at hmem
  | rebuildForest => simp [events_growForest, Registry.treesReport] at hmem
  | recompilePlan =>
    rw [events_makePlan h] at hevents
    rcases eq_of_concat_planReport hno hevents with ⟨hreport, rfl⟩
    exact ⟨hreport, router.held_or_reported⟩
  | answer method url => exact absurd hmem hno
  | answerByPlan method url =>
    rcases reports_needPlan h with ⟨-, hplan⟩ | hplan
    · simp [hplan] at hmem
    · rw [hplan] at hevents
      rcases eq_of_concat_planReport (by simpa using hno) hevents with ⟨hreport, rfl⟩
      exact ⟨hreport, router.held_or_reported.imp_right (List.mem_cons_of_mem _)⟩

/-- Trees that are held behind an operation were held before, or it has reported them. -/
theorem held_or_reported_of_step {router : Router H} (h : router.Coherent)
    {operation : Operation H} (hheld : (router.step operation).value.2.forest.isSome) :
    router.forest.isSome ∨ router.registry.treesReport ∈ (router.step operation).events := by
  rw [events_step]
  cases operation with
  | reset => cases hheld
  | register d =>
    cases hmethod : Method.parse d.method with
    | ok method => simp [step, register_of_parse_eq_ok _ hmethod, ofRegistry] at hheld
    | error cause =>
      exact Or.inl (by simpa [step, register_of_parse_eq_error _ hmethod] using hheld)
  | rebuildForest => exact Or.inr (by simp [events_growForest])
  | recompilePlan => exact router.held_or_reported.imp_right (List.mem_append_left _)
  | answer method url => exact router.held_or_reported
  | answerByPlan method url =>
    rcases reports_needPlan h with ⟨hsame, -⟩ | hevents
    · have hsame : (router.step (.answerByPlan method url)).value.2 = router := hsame
      exact Or.inl (hsame ▸ hheld)
    · rw [hevents]
      exact router.held_or_reported.imp_right fun hmem => by simp [hmem]

/-! ## While the routes stay -/

/-- A part of a session that keeps the routes reports no trees but theirs, and trees that are held
behind it were held before it or have been reported. -/
structure ReportsAlike (router : Router H) (stretch : List (Operation H)) : Prop where
  registry : (router.run stretch).value.2.registry = router.registry
  trees : ∀ trees routes nodes, .treesBuilt trees routes nodes ∈ (router.run stretch).events →
    .treesBuilt trees routes nodes = router.registry.treesReport
  held : (router.run stretch).value.2.forest.isSome →
    router.forest.isSome ∨ router.registry.treesReport ∈ (router.run stretch).events

theorem reportsAlike_of_isIdle {router : Router H} (h : router.Coherent)
    {stretch : List (Operation H)} (hidle : ∀ operation ∈ stretch, operation.isIdle) :
    router.ReportsAlike stretch := by
  induction stretch generalizing router with
  | nil => exact ⟨rfl, fun _ _ _ hmem => absurd hmem List.not_mem_nil, Or.inl⟩
  | cons operation stretch ih =>
    rw [List.forall_mem_cons] at hidle
    rcases coherent_step h operation with ⟨-, hregistry, hcoherent⟩
    rw [router.registry.next_of_isIdle hidle.1] at hregistry
    have hrest := ih hcoherent hidle.2
    constructor
    · exact hrest.registry.trans hregistry
    · intro trees routes nodes hmem
      rw [events_run_cons, List.mem_append] at hmem
      rcases hmem with hfirst | hlater
      · exact (treesBuilt_of_mem_step h hfirst).1
      · rw [← hregistry]
        exact hrest.trees trees routes nodes hlater
    · intro hheld
      rw [events_run_cons, List.mem_append]
      rcases hrest.held hheld with hbefore | hlater
      · exact (held_or_reported_of_step h hbefore).imp_right Or.inl
      · rw [hregistry] at hlater
        exact Or.inr (Or.inr hlater)

/-- Nothing is held at the start of a session, and behind an operation that changes the routes. -/
theorem forest_after_eq_none {earlier : List (Operation H)}
    (h : ∀ last ∈ earlier.getLast?, last.isIdle = false) : (after earlier).forest = none := by
  rcases List.eq_nil_or_concat' earlier with rfl | ⟨front, last, rfl⟩
  · rfl
  · have hchange : last.isIdle = false := h last (by simp)
    rw [after_concat]
    cases last with
    | reset => rfl
    | register d =>
      rw [Operation.isIdle] at hchange
      cases hmethod : Method.parse d.method with
      | ok method => simp [step, register_of_parse_eq_ok _ hmethod, ofRegistry]
      | error cause => simp [hmethod] at hchange
    | rebuildForest => cases hchange
    | recompilePlan => cases hchange
    | answer method url => cases hchange
    | answerByPlan method url => cases hchange

end Router

/-! ## Whole sessions -/

/-- If all reports of trees are the same, and there is one, then it is the last one. -/
theorem exists_last_report {events : List Event} {trees routes nodes : Nat}
    (hmem : .treesBuilt trees routes nodes ∈ events)
    (hsame : ∀ t r n, .treesBuilt t r n ∈ events →
      Event.treesBuilt t r n = .treesBuilt trees routes nodes) :
    ∃ before between, events = before ++ .treesBuilt trees routes nodes :: between ∧
      ∀ t r n, .treesBuilt t r n ∉ between := by
  -- the first one from the back
  rcases List.eq_append_cons_of_mem (List.mem_reverse.2 hmem) with ⟨behind, front, hsplit, hno⟩
  have hevents : events = front.reverse ++ .treesBuilt trees routes nodes :: behind.reverse := by
    simpa using congrArg List.reverse hsplit
  refine ⟨front.reverse, behind.reverse, hevents, ?_⟩
  intro t r n hbetween
  have hreport := hsame t r n (by rw [hevents]; simp [List.mem_reverse.1 hbetween])
  rw [hreport, List.mem_reverse] at hbetween
  exact hno hbetween

namespace Router

/-- Trees that a session reports: how many routes and methods have been registered since the last
new start, and what the router then holds. -/
theorem sizes_of_treesBuilt {earlier : List (Operation H)} {operation : Operation H}
    {trees routes nodes : Nat}
    (hmem : .treesBuilt trees routes nodes ∈ eventsIn earlier [operation]) :
    routes = (history earlier).length ∧
      trees = ((history earlier).map (·.2.method)).toFinset.card ∧
      ∃ forest, (after (earlier ++ [operation])).forest = some forest ∧
        forest.trees.length = trees ∧ forest.nodeCount = nodes ∧
        forest.numbers.length = routes := by
  rw [eventsIn_singleton] at hmem
  rcases treesBuilt_of_mem_step (coherent_after earlier) hmem with ⟨hreport, hforest⟩
  have hregistered := (records_after earlier).routes
  simp only [Registry.treesReport, Event.treesBuilt.injEq] at hreport
  rcases hreport with ⟨htrees, hroutes, hnodes⟩
  refine ⟨?_, ?_, _, ?_, htrees.symm, hnodes.symm, ?_⟩
  · rw [hroutes, hregistered, List.length_map]
  · rw [htrees, Forest.length_trees_ofRoutes, hregistered, List.map_map]
    rfl
  · rw [after_concat, hforest]
    rfl
  · rw [(Forest.numbers_ofRoutes_perm _).length_eq, List.length_map, hroutes]

/-- A plan that a session reports: since the routes changed trees have been reported, and the last
of them are those that the plan was compiled from. -/
theorem last_report_of_planCompiled {earlier stretch : List (Operation H)}
    (hchange : ∀ last ∈ earlier.getLast?, last.isIdle = false)
    (hidle : ∀ idle ∈ stretch, idle.isIdle) {operation : Operation H} {front back : List Event}
    {methods routines : Nat}
    (hevents : eventsIn (earlier ++ stretch) [operation] =
      front ++ .planCompiled methods routines :: back) :
    ∃ before routes between, eventsIn earlier stretch ++ front =
        before ++ .treesBuilt methods routes routines :: between ∧
      ∀ t r n, .treesBuilt t r n ∉ between := by
  rw [eventsIn_singleton] at hevents
  have halike := reportsAlike_of_isIdle (coherent_after earlier) hidle
  have hcoherent := coherent_after (earlier ++ stretch)
  rcases planCompiled_of_events_step hcoherent hevents with ⟨hplan, hbefore⟩
  -- all that is reported in the stretch and by the operation is about the same routes
  have hregistry : (after (earlier ++ stretch)).registry = (after earlier).registry := by
    rw [after_append]
    exact halike.registry
  rw [hregistry] at hplan hbefore
  simp only [Registry.planReport, Event.planCompiled.injEq] at hplan
  rcases hplan with ⟨rfl, rfl⟩
  have hmem : (after earlier).registry.treesReport ∈ eventsIn earlier stretch ++ front := by
    rw [List.mem_append]
    rcases hbefore with hheld | hfront
    · rw [after_append] at hheld
      have hreported := halike.held hheld
      rw [forest_after_eq_none hchange] at hreported
      exact Or.inl (hreported.resolve_left Bool.false_ne_true)
    · exact Or.inr hfront
  have hsame : ∀ t r n, .treesBuilt t r n ∈ eventsIn earlier stretch ++ front →
      Event.treesBuilt t r n = (after earlier).registry.treesReport := by
    intro t r n hbuilt
    rcases List.mem_append.1 hbuilt with hstretch | hfront
    · exact halike.trees t r n hstretch
    · have hstep : .treesBuilt t r n ∈ ((after (earlier ++ stretch)).step operation).events := by
        rw [hevents]
        exact List.mem_append_left _ hfront
      rw [← hregistry]
      exact (treesBuilt_of_mem_step hcoherent hstep).1
  rcases exists_last_report hmem hsame with ⟨before, between, hlog, hlast⟩
  exact ⟨before, _, between, hlog, hlast⟩

/-- What a session records is what its operations record, one after the other. Whenever an operation
reports trees, they were built for as many routes as have been registered since the last new start,
there are as many of them as methods among these routes, and the trees that the router then holds
have the reported sizes and hold as many numbers as there are routes. Whenever it reports a plan,
trees have been reported since the routes changed, or since the session began, and by the last of
these reports there are as many trees as the plan has methods, and as many nodes as it has
routines. -/
theorem reported_sizes (operations : List (Operation H)) :
    (∀ earlier operation later, earlier ++ operation :: later = operations →
      (empty.run operations).events = eventsIn [] earlier ++ eventsIn earlier [operation] ++
        eventsIn (earlier ++ [operation]) later ∧
      ∀ trees routes nodes, .treesBuilt trees routes nodes ∈ eventsIn earlier [operation] →
        routes = (history earlier).length ∧
        trees = ((history earlier).map (·.2.method)).toFinset.card ∧
        ∃ forest, (after (earlier ++ [operation])).forest = some forest ∧
          forest.trees.length = trees ∧ forest.nodeCount = nodes ∧
          forest.numbers.length = routes) ∧
    (∀ earlier stretch operation later, earlier ++ stretch ++ operation :: later = operations →
      (∀ last ∈ earlier.getLast?, last.isIdle = false) →
      (∀ idle ∈ stretch, idle.isIdle) →
      ∀ front methods routines back,
        eventsIn (earlier ++ stretch) [operation] =
          front ++ .planCompiled methods routines :: back →
        ∃ before routes between, eventsIn earlier stretch ++ front =
            before ++ .treesBuilt methods routes routines :: between ∧
          ∀ t r n, .treesBuilt t r n ∉ between) := by
  constructor
  · rintro earlier operation later rfl
    have hparts := eventsIn_append [] (earlier ++ [operation]) later
    rw [eventsIn_append [] earlier [operation], List.append_assoc] at hparts
    refine ⟨hparts, ?_⟩
    intro trees routes nodes hmem
    exact sizes_of_treesBuilt hmem
  · intro earlier stretch operation later _ hchange hidle front methods routines back hevents
    exact last_report_of_planCompiled hchange hidle hevents

end Router

end Routing
