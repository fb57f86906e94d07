import PathRouting.Router.Route
import Std.Data.TreeMap

/-!
# Routers

A router is a table of routes in the order in which their names were first registered, with an
index from names to places in the table.
-/

namespace PathRouting

/-- A table of routes, and the place in it of each name. -/
structure Router (H : Type) where
  routes : Array (Route H)
  names : Std.TreeMap String Nat

namespace Router

variable {H : Type}

/-- No routes. -/
def empty : Router H := ⟨#[], ∅⟩

/-- The router without its routes. -/
def clear (_router : Router H) : Router H := empty

/-- The number of routes. -/
def size (router : Router H) : Nat :=
  router.routes.size

/-- Whether there are no routes. -/
def isEmpty (router : Router H) : Bool :=
  router.routes.isEmpty

/-- The routes, in order. -/
def toList (router : Router H) : List (Route H) :=
  router.routes.toList

/-- The place of the route with a name. -/
def placeOf? (router : Router H) (name : String) : Option Nat :=
  router.names[name]?

/-- The route with a name. -/
def byName? (router : Router H) (name : String) : Option (Route H) :=
  (router.placeOf? name).bind fun place => router.routes[place]?

/-- The URI of the route with a name, with the values of `args`. -/
def uri {α : Type u} [Arguments α] (router : Router H) (name : String) (args : α) :
    Except RoutingError String :=
  match router.byName? name with
  | some route => route.uri args
  | none => .error (.routeNotFound name)

end Router

end PathRouting
