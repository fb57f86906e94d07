import PathRouting.Event
import PathRouting.Router.Basic

/-!
# Dispatching requests

A request is a method and a path. The routes that serve it are those that serve its method and
match its path. One can ask for the first of them, for all of them, or for the calls of their
handlers; each answer walks the table by itself.

A method that comes as text may be unknown. No route serves it then, and that it is unknown is
reported, but not for the methods of HTTP requests.
-/

namespace PathRouting

/-- A route that serves a request, and what it captures from the path. -/
structure RouteMatch (H : Type) where
  route : Route H
  captures : Captures

/-- A handler, and the captures to call it with. -/
structure Call (H : Type) where
  handler : H
  captures : Captures

/-- The calls for a request, in order, and the last route that serves it. -/
structure Dispatch (H : Type) where
  calls : Array (Call H)
  current? : Option (Route H)

namespace Dispatch

variable {H : Type}

/-- No calls. -/
def empty : Dispatch H := ⟨#[], none⟩

/-- Adds the call of a route that serves the method of a request, if the route matches. -/
def visit (path : String) (dispatch : Dispatch H) (route : Route H) : Logged (Dispatch H) :=
  match route.find? path with
  | some captures => do
    Logged.emit (.routeMatched route.name captures.size)
    return { calls := dispatch.calls.push ⟨route.handler, captures⟩, current? := some route }
  | none => do
    Logged.emit (.routeSkipped route.name)
    return dispatch

end Dispatch

/-- The method that a request names. A name of no method is reported. -/
def requestMethod? (name : String) : Logged (Option Method) :=
  match Method.ofName name with
  | .ok method => return some method
  | .error error => do
    Logged.emit (.unknownRequestMethod error)
    return none

namespace Router

variable {H : Type}

/-! ## Requests of a known method -/

/-- The routes that serve a method, in order. -/
def serving (router : Router H) (method : Method) : List (Route H) :=
  router.toList.filter (·.serves method)

/-- The first route that serves a request. -/
def findServing? (router : Router H) (method : Method) (path : String) :
    Option (RouteMatch H) :=
  (router.serving method).findSome? fun route => (route.find? path).map (⟨route, ·⟩)

/-- All routes that serve a request, in order. -/
def matchesServing (router : Router H) (method : Method) (path : String) :
    List (RouteMatch H) :=
  (router.serving method).filterMap fun route => (route.find? path).map (⟨route, ·⟩)

/-- The calls for a request. The routes that serve its method are reported in order, and at last
that none of them matches, if so. -/
def executeServing (router : Router H) (method : Method) (path : String) :
    Logged (Dispatch H) := do
  let dispatch ← (router.serving method).foldlM (Dispatch.visit path) .empty
  if dispatch.current?.isNone then
    Logged.emit (.noRouteMatched method path)
  return dispatch

/-! ## Requests of a named method -/

/-- The first route that serves a request. -/
def find? (router : Router H) (method path : String) : Logged (Option (RouteMatch H)) := do
  match ← requestMethod? method with
  | some method => return router.findServing? method path
  | none => return none

/-- All routes that serve a request, in order. -/
def findAll (router : Router H) (method path : String) : Logged (List (RouteMatch H)) := do
  match ← requestMethod? method with
  | some method => return router.matchesServing method path
  | none => return []

/-- The calls for a request. -/
def execute (router : Router H) (method path : String) : Logged (Dispatch H) := do
  match ← requestMethod? method with
  | some method => router.executeServing method path
  | none => return .empty

/-! ## HTTP requests -/

/-- The first route that serves an HTTP request. -/
def findHttp? (router : Router H) (method : HttpMethod) (path : String) :
    Option (RouteMatch H) :=
  method.toMethod.toOption.bind fun method => router.findServing? method path

/-- The calls for an HTTP request. -/
def executeHttp (router : Router H) (method : HttpMethod) (path : String) :
    Logged (Dispatch H) :=
  match method.toMethod with
  | .ok method => router.executeServing method path
  | .error _ => return .empty

end Router

end PathRouting
