import Routing.Method
import Routing.Path.Parameters

/-!
# Routes and the registry

* `Route` — a method, a path and a handler, with the number under which the route is registered.
* `Definition` — what is given to register a route: the method and the path as texts.
* `Registry` — the registered routes in order. Routes are numbered from zero as they come, so the
  number of a route is its index.
-/

namespace Routing

/-- A registered route. Nothing is asked of the handler; it is handed back with every match. -/
structure Route (H : Type) where
  id : Nat
  method : Method
  path : Path
  handler : H

/-- A route as its author gives it. -/
structure Definition (H : Type) where
  method : String
  path : String
  handler : H

/-- The registered routes, in order of registration. -/
structure Registry (H : Type) where
  routes : List (Route H)
  numbered : ∀ {i : Nat} {route : Route H}, routes[i]? = some route → route.id = i

/-- A definition that could not be registered: how many were registered before it, and why. -/
structure Refusal where
  index : Nat
  cause : RoutingError
deriving DecidableEq, Repr

namespace Route

variable {H : Type}

/-- The parameters of the route's path. -/
def parameters (route : Route H) : List Parameter :=
  route.path.parameters

/-- The index of the segment that binds a name. -/
def positionOf? (route : Route H) (name : String) : Option Nat :=
  route.path.positionOf? name

end Route

namespace Registry

variable {H : Type}

/-- The registry without routes. -/
def empty : Registry H where
  routes := []
  numbered := by simp

/-- The route that a method, a path and a handler would become next. -/
def nextRoute (registry : Registry H) (method : Method) (path : Path) (handler : H) : Route H :=
  ⟨registry.routes.length, method, path, handler⟩

/-- The registry with one more route. -/
def add (registry : Registry H) (method : Method) (path : Path) (handler : H) : Registry H where
  routes := registry.routes ++ [registry.nextRoute method path handler]
  numbered := by
    intro i route h
    rcases Nat.lt_trichotomy i registry.routes.length with hlt | heq | hgt
    · rw [List.getElem?_append_left hlt] at h
      exact registry.numbered h
    · subst heq
      have : registry.nextRoute method path handler = route := by simpa using h
      simp [← this, nextRoute]
    · have hnone : (registry.routes ++ [registry.nextRoute method path handler])[i]? = none :=
        List.getElem?_eq_none (by simp; omega)
      simp [hnone] at h

/-- Register a definition: its method has to be known, its path is put in canonical form. Success
gives the route that it becomes, and the registry with this route behind the others. -/
def register (registry : Registry H) (d : Definition H) :
    Except RoutingError (Route H × Registry H) :=
  match Method.parse d.method with
  | .ok method =>
    let path := Path.ofText d.path
    .ok (registry.nextRoute method path d.handler, registry.add method path d.handler)
  | .error cause => .error cause

/-- Register definitions in order, up to the first that is refused. -/
def registerAll (registry : Registry H) : List (Definition H) → Except Refusal (Registry H)
  | [] => .ok registry
  | d :: ds =>
    match registry.register d with
    | .ok (_, registry) => registry.registerAll ds
    | .error cause => .error ⟨registry.routes.length, cause⟩

/-- The registry of a list of definitions. -/
def ofDefinitions (ds : List (Definition H)) : Except Refusal (Registry H) :=
  empty.registerAll ds

end Registry

end Routing
