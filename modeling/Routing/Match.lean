import Std.Data.ExtTreeMap
import Routing.Route

/-!
# Matches and answers

A request is answered by the routes that match it, each with the values of its parameters. A
request that no route matches is answered by an error, never by an empty list.
-/

namespace Routing

/-- The values of parameters, by name. -/
abbrev Params := Std.ExtTreeMap String String

/-- A route that answers a request, with the values that the URL gives to its parameters. -/
structure Match (H : Type) where
  route : Route H
  params : Params

/-- What a request is answered. -/
abbrev Answer (H : Type) := Except RoutingError (List (Match H))

namespace Params

/-- The params of a list of names and values. Of several values for one name the last one stays. -/
def ofPairs (pairs : List (String × String)) : Params :=
  pairs.foldl (fun params (name, value) => params.insert name value) ∅

end Params

namespace Answer

variable {H : Type}

/-- The answer to a request from the matches found for it, if there are any. -/
def ofMatches (method url : String) : Option (List (Match H)) → Answer H
  | some ms => .ok ms
  | none => .error (.routeNotFound method url)

end Answer

end Routing
