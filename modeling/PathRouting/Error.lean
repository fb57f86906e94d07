import PathRouting.Text.Quoted

/-!
# Errors of routing

What can go wrong when a method is named, a route is looked up or a URI is built. Each error
carries the texts that tell it from the others, and its message quotes them.
-/

namespace PathRouting

/-- An error of routing. -/
inductive RoutingError where
  /-- No method has this name. -/
  | invalidMethod (name : String)
  /-- No route has this name. -/
  | routeNotFound (name : String)
  /-- A placeholder of a pattern has no value, or stands behind one that had none. -/
  | unresolvedPlaceholder (pattern name : String)
  deriving DecidableEq, Repr

/-- The text of an error. -/
def RoutingError.message : RoutingError → String
  | .invalidMethod name => Text.quote name ++ " is not a valid method name"
  | .routeNotFound name => "no route is named " ++ Text.quote name
  | .unresolvedPlaceholder pattern name =>
    "placeholder " ++ Text.quote name ++ " is unresolved: pattern = " ++ Text.quote pattern

end PathRouting
