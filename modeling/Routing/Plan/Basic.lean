import Routing.Method
import Routing.Text.Quoted

/-!
# Plans

A plan is what is left of a forest when everything that a request does not need is taken out. It
has a routine for every node. A routine knows which routes end at it, with the places where the
values of their parameters will be found, and how to go on with the next piece of the URL.

* `Ending` — a route that ends at a routine.
* `Choice` — how a routine goes on: compare the piece with texts, then, if nothing was equal and a
  wildcard exists, capture it.
* `Routine`, `Plan` — the compiled form of a node and of a forest.
-/

namespace Routing

/-- Where the value of a parameter is found: `parameter` is its index among the parameters of the
route, `place` the index of the value among the pieces captured on the way. -/
structure Slot where
  parameter : Nat
  place : Nat
deriving DecidableEq, Repr

/-- A route that ends at a routine, by its number. -/
structure Ending where
  route : Nat
  slots : List Slot
deriving DecidableEq, Repr

/-- How a routine goes on with the next piece of the URL. Each constructor but `stop` holds the
routine that follows: the routes ending there, and its own choice `below`. -/
inductive Choice where
  | stop
  | capture (endings : List Ending) (below : Choice)
  | test (text : String) (endings : List Ending) (below otherwise : Choice)
deriving DecidableEq, Repr

/-- The compiled form of a node. -/
structure Routine where
  endings : List Ending
  choice : Choice
deriving DecidableEq, Repr

/-- A routine for every method that has a tree. -/
structure Plan where
  routines : List (Method × Routine)
deriving DecidableEq, Repr

namespace Choice

/-- The number of routines that a choice leads to. -/
def count : Choice → Nat
  | .stop => 0
  | .capture _ below => 1 + below.count
  | .test _ _ below otherwise => 1 + below.count + otherwise.count

/-- No routine follows. -/
def isStop : Choice → Bool
  | .stop => true
  | _ => false

end Choice

namespace Routine

/-- The number of routines from this one on, this one included. -/
def count (routine : Routine) : Nat :=
  1 + routine.choice.count

end Routine

namespace Plan

/-- The number of routines of the plan. -/
def routineCount (plan : Plan) : Nat :=
  plan.routines.foldr (fun (_, routine) total => routine.count + total) 0

/-- The quoted tokens of the methods of the plan, in ascending order. -/
def quotedTokens (plan : Plan) : List String :=
  ((plan.routines.map fun (method, _) => method.token).mergeSort (· ≤ ·)).map Text.quote

/-- The plan in one line: its methods and the number of its routines. -/
def summary (plan : Plan) : String :=
  "CompiledMatcher \x7b methods: [" ++ ", ".intercalate plan.quotedTokens ++ "], closures: " ++
    toString plan.routineCount ++ " \x7d"

/-- The summary with every item on a line of its own. -/
def longSummary (plan : Plan) : String :=
  let methods :=
    match plan.quotedTokens with
    | [] => "[]"
    | tokens => "[\n" ++ String.join (tokens.map fun t => "        " ++ t ++ ",\n") ++ "    ]"
  "CompiledMatcher \x7b\n    methods: " ++ methods ++ ",\n    closures: " ++
    toString plan.routineCount ++ ",\n\x7d"

end Plan

end Routing
