import Routing.Text.Uppercase

/-!
# Request methods

The methods that a route may answer, each with the token that names it on the wire. A request must
spell the token exactly (`Method.ofToken?`); a registration may write it in any letter case
(`Method.parse`), and is refused when no method is named. `RoutingError` has this refusal, and that
of a request which no route answers.
-/

namespace Routing

/-- Why routing refuses: a registration names no known method, or no route answers a request. -/
inductive RoutingError where
  | unsupportedMethod (token : String)
  | routeNotFound (method url : String)
deriving DecidableEq, Repr

namespace RoutingError

/-- The error in words. Tokens and URLs are given as they were received. -/
def message : RoutingError → String
  | .unsupportedMethod token => "Method " ++ token ++ " is not supported"
  | .routeNotFound method url => method ++ " " ++ url ++ " not found"

end RoutingError

/-- A request method. -/
inductive Method where
  | acl | bind | checkout | connect | copy | delete | get | head
  | link | lock | mSearch | merge | mkactivity | mkcalendar | mkcol | move
  | notify | options | patch | post | propfind | proppatch | purge | put
  | rebind | report | search | subscribe | trace | unbind | unlink | unlock
  | unsubscribe
deriving DecidableEq, Repr

namespace Method

/-- All methods, in the order in which listings give them. -/
def all : List Method :=
  [.acl, .bind, .checkout, .connect, .copy, .delete, .get, .head, .link, .lock, .mSearch,
   .merge, .mkactivity, .mkcalendar, .mkcol, .move, .notify, .options, .patch, .post, .propfind,
   .proppatch, .purge, .put, .rebind, .report, .search, .subscribe, .trace, .unbind, .unlink,
   .unlock, .unsubscribe]

/-- The token of the method. -/
def token : Method → String
  | .acl => "ACL"
  | .bind => "BIND"
  | .checkout => "CHECKOUT"
  | .connect => "CONNECT"
  | .copy => "COPY"
  | .delete => "DELETE"
  | .get => "GET"
  | .head => "HEAD"
  | .link => "LINK"
  | .lock => "LOCK"
  | .mSearch => "M-SEARCH"
  | .merge => "MERGE"
  | .mkactivity => "MKACTIVITY"
  | .mkcalendar => "MKCALENDAR"
  | .mkcol => "MKCOL"
  | .move => "MOVE"
  | .notify => "NOTIFY"
  | .options => "OPTIONS"
  | .patch => "PATCH"
  | .post => "POST"
  | .propfind => "PROPFIND"
  | .proppatch => "PROPPATCH"
  | .purge => "PURGE"
  | .put => "PUT"
  | .rebind => "REBIND"
  | .report => "REPORT"
  | .search => "SEARCH"
  | .subscribe => "SUBSCRIBE"
  | .trace => "TRACE"
  | .unbind => "UNBIND"
  | .unlink => "UNLINK"
  | .unlock => "UNLOCK"
  | .unsubscribe => "UNSUBSCRIBE"

/-- The method whose token is exactly the given text. -/
def ofToken? (token : String) : Option Method :=
  all.find? (·.token = token)

/-- The method that a registration names: by its token, or by a text whose upper case is its
token. -/
def parse (raw : String) : Except RoutingError Method :=
  match (ofToken? raw).or (ofToken? (Text.uppercase raw)) with
  | some method => .ok method
  | none => .error (.unsupportedMethod raw)

/-! ## Tokens name methods -/

theorem mem_all (method : Method) : method ∈ all := by
  cases method <;> decide

theorem nodup_all : all.Nodup := by
  decide

theorem token_injective {m n : Method} (h : m.token = n.token) : m = n := by
  have hfind : ∀ m : Method, all.find? (·.token = m.token) = some m := by
    intro m
    cases m <;> decide
  exact Option.some.inj ((hfind m).symm.trans (h ▸ hfind n))

theorem ofToken?_eq_some_iff {token : String} {m : Method} :
    ofToken? token = some m ↔ m.token = token := by
  constructor
  · intro h
    simpa using List.find?_some h
  · rintro rfl
    cases m <;> decide

end Method

end Routing
