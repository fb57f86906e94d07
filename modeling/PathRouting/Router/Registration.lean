import PathRouting.Event
import PathRouting.Router.Basic

/-!
# Registering routes

A route with a new name goes to the end of the table. A route with the name of an earlier one
takes the place of that one. Each registration is reported.
-/

namespace PathRouting

/-- A router after a registration, and the place of the registered route. -/
structure Registration (H : Type) where
  router : Router H
  place : Nat

namespace Registration

variable {H : Type}

/-- The registered route. -/
def route? (registration : Registration H) : Option (Route H) :=
  registration.router.routes[registration.place]?

end Registration

namespace Router

variable {H : Type}

/-- Registers a route. -/
def insert (router : Router H) (route : Route H) : Logged (Registration H) := do
  Logged.emit (.routeRegistered route.method route.name route.pattern.source
    route.pattern.segments.length)
  match router.names[route.name]? with
  | some place =>
    Logged.emit (.routeNameReused route.name)
    return { router := { router with routes := router.routes.setIfInBounds place route }, place }
  | none =>
    let place := router.routes.size
    return { router := ⟨router.routes.push route, router.names.insert route.name place⟩, place }

/-- Registers a route under the text of its pattern. -/
def register (router : Router H) (method : Method) (pattern : String) (handler : H) :
    Logged (Router H) :=
  Registration.router <$> router.insert (.ofPattern method pattern none handler)

/-- Registers a route under a name. -/
def registerNamed (router : Router H) (method : Method) (pattern name : String) (handler : H) :
    Logged (Router H) :=
  Registration.router <$> router.insert (.ofPattern method pattern (some name) handler)

/-- Registers a route for the method with a given name, under a name of its own if there is one.
Nothing is registered or reported if no method has the given name. -/
def tryRegister (router : Router H) (method pattern : String) (name? : Option String)
    (handler : H) : Except RoutingError (Logged (Registration H)) :=
  (Method.ofName method).map fun method =>
    router.insert (.ofPattern method pattern name? handler)

/-- Registers a route under the text of its pattern, with a handler that is boxed first. -/
def route {K : Type} (router : Router H) (box : K → H) (method : Method) (pattern : String)
    (handler : K) : Logged (Router H) :=
  router.register method pattern (box handler)

/-- Registers a route under a name, with a handler that is boxed first. -/
def routeNamed {K : Type} (router : Router H) (box : K → H) (method : Method)
    (pattern name : String) (handler : K) : Logged (Router H) :=
  router.registerNamed method pattern name (box handler)

/-! ## One method each -/

/-- Registers a route for `get` requests. -/
def get (router : Router H) (pattern : String) (handler : H) : Logged (Router H) :=
  router.register .get pattern handler

/-- Registers a route for `head` requests. -/
def head (router : Router H) (pattern : String) (handler : H) : Logged (Router H) :=
  router.register .head pattern handler

/-- Registers a route for `post` requests. -/
def post (router : Router H) (pattern : String) (handler : H) : Logged (Router H) :=
  router.register .post pattern handler

/-- Registers a route for `put` requests. -/
def put (router : Router H) (pattern : String) (handler : H) : Logged (Router H) :=
  router.register .put pattern handler

/-- Registers a route for `patch` requests. -/
def patch (router : Router H) (pattern : String) (handler : H) : Logged (Router H) :=
  router.register .patch pattern handler

/-- Registers a route for `delete` requests. -/
def delete (router : Router H) (pattern : String) (handler : H) : Logged (Router H) :=
  router.register .delete pattern handler

/-- Registers a route for `options` requests. -/
def options (router : Router H) (pattern : String) (handler : H) : Logged (Router H) :=
  router.register .options pattern handler

/-- Registers a route for requests of every method. -/
def any (router : Router H) (pattern : String) (handler : H) : Logged (Router H) :=
  router.register .any pattern handler

/-! ## Whole tables -/

/-- The router of a list of methods, patterns and handlers, registered in order. -/
def ofList (entries : List (Method × String × H)) : Logged (Router H) :=
  entries.foldlM (fun router (method, pattern, handler) => router.register method pattern handler)
    empty

end Router

end PathRouting
