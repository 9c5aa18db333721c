import Routing.Match
import Routing.Plan.Basic
import Routing.Url

/-!
# Answering with a plan

A request starts the routine of its method with a cursor at the start of the URL. A routine reads
one piece, or finds that none is left, and hands over to the routine that follows; nothing is cut
ahead of time. What a routine finds is a list of `Hit`s: routes with the values captured for their
parameters. The names of the parameters are looked up in the routes at the very end.
-/

namespace Routing

/-- A route that was reached, with values by index of parameter. -/
structure Hit where
  route : Nat
  values : List (Nat × String)
deriving DecidableEq, Repr

/-- The values that an ending takes from the captured pieces. -/
def Ending.hit (ending : Ending) (captured : List String) : Hit where
  route := ending.route
  values := ending.slots.filterMap fun slot =>
    captured[slot.place]?.map fun value => (slot.parameter, value)

/-- Enter a routine. A routine from which nothing goes on only asks whether the URL is at its end;
one at which no route ends needs one more piece; `go` is its choice, applied to that piece. -/
def enter (endings : List Ending) (stops : Bool)
    (go : String → Url.Cursor → List String → Option (List Hit))
    (cursor : Url.Cursor) (captured : List String) : Option (List Hit) :=
  match endings, stops with
  | [], true => none
  | _ :: _, true =>
    if cursor.atEnd then some (endings.map (·.hit captured)) else none
  | [], false =>
    match cursor.next with
    | (none, _) => none
    | (some piece, behind) => go piece behind captured
  | _ :: _, false =>
    match cursor.next with
    | (none, _) => some (endings.map (·.hit captured))
    | (some piece, behind) => go piece behind captured

/-- Go on with a piece of the URL: the first equal text decides, else the piece is captured. -/
def Choice.go : Choice → String → Url.Cursor → List String → Option (List Hit)
  | .stop, _, _, _ => none
  | .capture endings below, piece, cursor, captured =>
    enter endings below.isStop below.go cursor (captured ++ [piece])
  | .test text endings below otherwise, piece, cursor, captured =>
    if piece = text then enter endings below.isStop below.go cursor captured
    else otherwise.go piece cursor captured

/-- The hits of a routine on a URL. -/
def Routine.hits (routine : Routine) (url : String) : Option (List Hit) :=
  enter routine.endings routine.choice.isStop routine.choice.go (.start url) []

namespace Hit

variable {H : Type}

/-- The hit as a match of its route. A value for which the route has no parameter is left out. -/
def toMatch (hit : Hit) (route : Route H) : Match H where
  route := route
  params := Params.ofPairs <| hit.values.filterMap fun (index, value) =>
    route.parameters[index]?.map fun parameter => (parameter.name, value)

/-- The hit as a match, if its route exists. -/
def toMatch? (hit : Hit) (routes : List (Route H)) : Option (Match H) :=
  routes[hit.route]?.map hit.toMatch

end Hit

namespace Plan

variable {H : Type}

/-- The routine for a token. -/
def routine? (plan : Plan) (token : String) : Option Routine :=
  (plan.routines.find? fun (method, _) => method.token = token).map (·.2)

/-- The matches of a request. A single hit without a route makes the whole request fail. -/
def matches? (plan : Plan) (routes : List (Route H)) (method url : String) :
    Option (List (Match H)) :=
  ((plan.routine? method).bind (·.hits url)).bind fun hits => hits.mapM (·.toMatch? routes)

/-- Answer a request with the plan. -/
def answer (plan : Plan) (routes : List (Route H)) (method url : String) : Answer H :=
  .ofMatches method url (plan.matches? routes method url)

end Plan

end Routing
