import PathRouting.Method
import PathRouting.Pattern.Match
import PathRouting.Pattern.Uri

/-!
# Routes

A route joins a pattern with the method it serves, the name it goes by and the handler of its
requests. A handler can be anything: a router names the handlers to call and with what, and
leaves the calls to its owner.
-/

namespace PathRouting

/-- A route with a handler of type `H`. -/
structure Route (H : Type) where
  method : Method
  name : String
  pattern : Pattern
  handler : H

namespace Route

variable {H : Type}

/-- The route of a pattern. It goes by the text of the pattern unless it is given a name. -/
def ofPattern (method : Method) (pattern : String) (name? : Option String) (handler : H) :
    Route H where
  method := method
  name := name?.getD pattern
  pattern := .compile pattern
  handler := handler

/-- Whether the route serves requests of a method. -/
def serves (route : Route H) (request : Method) : Bool :=
  route.method.serves request

/-- Matches a path with the pattern of the route. -/
def find? (route : Route H) (path : String) : Option Captures :=
  route.pattern.find? path

/-- The URI of the route with the values of `args`. -/
def uri {α : Type u} [Arguments α] (route : Route H) (args : α) : Except RoutingError String :=
  route.pattern.uri args

end Route

end PathRouting
