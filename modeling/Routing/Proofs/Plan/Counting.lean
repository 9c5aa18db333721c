import Routing.Proofs.Forest.Size
import Routing.Proofs.Plan.Execution

/-!
# One routine for every node

The compiler makes one routine for every node of a forest, whatever routes it is given: these only
fill the slots of endings. So the number of routines can be had while a forest is compiled, by raising
a counter with every routine made, or from the plan, or from the forest before anything is compiled.

* `Plan.compileCounting` — the compiler with a counter.
* `Plan.run_compileCounting` — it makes the same plan, and the counter goes up by the number of nodes.
* `Plan.routineCount_compile` — the plan has as many routines as the forest has nodes.
* `Plan.one_routine_per_node` — the plan of a forest of routes, method by method.
-/

namespace Routing

variable {G H K : Type}

/-! ## The compiler with a counter -/

/-- Compile branches, and raise the counter behind every routine that was made. -/
def Branches.compileCounting (routes : List (Route H)) (depth : Nat) (depths : List Nat) :
    Branches → StateM Nat Choice
  | .nil => pure .stop
  | .wildcard entry below => do
    let choice ← below.compileCounting routes (depth + 1) (depths ++ [depth])
    modify (· + 1)
    pure (.capture (endingsOf routes (depths ++ [depth]) entry) choice)
  | .literal text entry below rest => do
    let choice ← below.compileCounting routes (depth + 1) depths
    modify (· + 1)
    let otherwise ← rest.compileCounting routes depth depths
    pure (.test text (endingsOf routes depths entry) choice otherwise)

/-- Compile a tree. The routine of the root is made last. -/
def Node.compileCounting (routes : List (Route H)) (root : Node) : StateM Nat Routine := do
  let choice ← root.branches.compileCounting routes 0 []
  modify (· + 1)
  pure ⟨endingsOf routes [] root.entry, choice⟩

/-- Compile trees in order, with one counter for all of them. -/
def Forest.compileTreesCounting (routes : List (Route H)) :
    List (Method × Node) → StateM Nat (List (Method × Routine))
  | [] => pure []
  | (method, root) :: trees => do
    let routine ← root.compileCounting routes
    let routines ← compileTreesCounting routes trees
    pure ((method, routine) :: routines)

/-- Compile a forest. -/
def Plan.compileCounting (routes : List (Route H)) (forest : Forest) : StateM Nat Plan := do
  let routines ← Forest.compileTreesCounting routes forest.trees
  pure ⟨routines⟩

/-- The counter goes up by one for every node that the branches hold. -/
theorem Branches.run_compileCounting (routes : List (Route H)) (depth : Nat) (depths : List Nat)
    (branches : Branches) (n : Nat) :
    (branches.compileCounting routes depth depths).run n =
      pure (branches.compile routes depth depths, n + branches.count) := by
  -- for every counter: the other branches start from where the first one has left it
  induction branches generalizing depth depths n with
  | nil => rfl
  | wildcard entry below ih =>
    have hcount : n + below.count + 1 = n + (1 + below.count) := by omega
    simp [compileCounting, compile, count, ih, hcount]
  | literal text entry below rest ihbelow ihrest =>
    have hcount : n + below.count + 1 + rest.count = n + (1 + below.count + rest.count) := by omega
    simp [compileCounting, compile, count, ihbelow, ihrest, hcount]

theorem Node.run_compileCounting (routes : List (Route H)) (root : Node) (n : Nat) :
    (root.compileCounting routes).run n = pure (root.compile routes, n + root.count) := by
  have hcount : n + root.branches.count + 1 = n + (1 + root.branches.count) := by omega
  simp [compileCounting, Branches.run_compileCounting, compile, count, hcount]

namespace Plan

/-- One counter goes through all trees, so it goes up by the number of all their nodes. -/
theorem run_compileTreesCounting (routes : List (Route H)) (trees : List (Method × Node))
    (n : Nat) :
    (Forest.compileTreesCounting routes trees).run n =
      pure ((compile routes ⟨trees⟩).routines, n + Forest.nodeCount ⟨trees⟩) := by
  induction trees generalizing n with
  | nil => rfl
  | cons tree trees ih =>
    rcases tree with ⟨method, root⟩
    simp [Forest.compileTreesCounting, Node.run_compileCounting, ih, compile, Forest.nodeCount,
      Nat.add_assoc]

/-- The compiler with a counter makes the same plan, and counts the nodes of the forest. -/
theorem run_compileCounting (routes : List (Route H)) (forest : Forest) (n : Nat) :
    (compileCounting routes forest).run n =
      pure (compile routes forest, n + forest.nodeCount) := by
  rw [compileCounting, StateT.run_bind, run_compileTreesCounting]
  rfl

end Plan

/-! ## Counting afterwards -/

/-- Branches become as many routines as they hold nodes. -/
theorem Branches.count_compile (routes : List (Route H)) (depth : Nat) (depths : List Nat)
    (branches : Branches) : (branches.compile routes depth depths).count = branches.count := by
  induction branches generalizing depth depths with
  | nil => rfl
  | wildcard entry below ih => rw [compile, Choice.count, ih, count]
  | literal text entry below rest ihbelow ihrest =>
    rw [compile, Choice.count, ihbelow, ihrest, count]

theorem Node.count_compile (routes : List (Route H)) (root : Node) :
    (root.compile routes).count = root.count := by
  rw [compile, Routine.count, Branches.count_compile, count]

namespace Plan

/-- A plan has as many routines as its forest has nodes. -/
theorem routineCount_compile (routes : List (Route H)) (forest : Forest) :
    (compile routes forest).routineCount = forest.nodeCount := by
  simp only [routineCount, compile, List.foldr_map, Node.count_compile, Forest.nodeCount]

/-- The tokens of a plan are those of the methods that have a tree. -/
theorem isSome_routine?_compile_iff (routes : List (Route H)) (forest : Forest) (token : String) :
    ((compile routes forest).routine? token).isSome ↔
      ∃ method, method.token = token ∧ (forest.tree? method).isSome := by
  rw [routine?_compile, Option.isSome_map]
  simp only [← Method.ofToken?_eq_some_iff]
  cases Method.ofToken? token <;> simp

theorem count_routine?_compile (routes : List (Route H)) (forest : Forest) (method : Method) :
    ((compile routes forest).routine? method.token).map Routine.count =
      (forest.tree? method).map Node.count := by
  rw [routine?_compile, Method.ofToken?_eq_some_iff.2 rfl, Option.bind_some, Option.map_map]
  congr 1
  funext root
  exact Node.count_compile routes root

/-- A plan has one routine for every node of the forest it was compiled from, whatever routes it was
compiled with. A counter that the compiler raises with every routine it makes ends at the number of
routines of the plan, which is the number of nodes of the forest. The plan has one entry for every
method with a tree and no others, and the routine there counts as many routines as the tree has
nodes. So plans compiled with other routes have the same number of routines. -/
theorem one_routine_per_node (tree : List (Route G)) (compiled : List (Route H)) :
    let forest := Forest.ofRoutes tree
    let plan := Plan.compile compiled forest
    (compileCounting compiled forest).run 0 = (plan, plan.routineCount) ∧
    plan.routineCount = forest.nodeCount ∧
    (∀ token, (plan.routine? token).isSome ↔
      ∃ method, method.token = token ∧ (forest.tree? method).isSome) ∧
    (plan.routines.map (·.1)).Nodup ∧
    (∀ method, (plan.routine? method.token).map Routine.count =
      (forest.tree? method).map Node.count) ∧
    ∀ other : List (Route K), (Plan.compile other forest).routineCount = plan.routineCount := by
  intro forest plan
  have hcount : ∀ {L : Type} (routes : List (Route L)),
      (Plan.compile routes forest).routineCount = forest.nodeCount := by
    intro L routes
    exact routineCount_compile routes forest
  refine ⟨?_, hcount compiled, isSome_routine?_compile_iff compiled forest, ?_,
    count_routine?_compile compiled forest, ?_⟩
  · rw [run_compileCounting, Nat.zero_add, hcount compiled]
    rfl
  · have hmethods : plan.routines.map (·.1) = forest.trees.map (·.1) := by
      simp [plan, compile]
    rw [hmethods]
    exact Forest.nodup_methods_ofRoutes tree
  · intro other
    rw [hcount other, hcount compiled]

end Plan

end Routing
