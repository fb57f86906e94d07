import PathRouting.Arguments
import PathRouting.Error
import PathRouting.Pattern.Basic

/-!
# Building URIs

A URI is built from a pattern by giving values to its placeholders. An optional placeholder
without a value is left out, but only if nothing follows it: a value behind a gap would move to
the wrong part of the path, so the placeholder of the gap is then reported as unresolved.
-/

namespace PathRouting

/-- What a segment contributes to a URI. -/
inductive Segment.Contribution where
  /-- A part of the URI. -/
  | part (text : String)
  /-- Nothing: the value of an optional placeholder is missing. -/
  | gap (name : String)
  /-- An error: the value of a required placeholder is missing. -/
  | missing (name : String)
  deriving DecidableEq, Repr

/-- The contribution of a segment, with the values that `value?` gives to names. -/
def Segment.contribution (value? : String → Option String) : Segment → Contribution
  | .literal text => .part text
  | .placeholder p =>
    match value? p.name with
    | some value => .part value
    | none => if p.isOptional then .gap p.name else .missing p.name

namespace Pattern

/-- The parts that segments contribute, each behind a slash, or the name of the placeholder that
is unresolved. `gap?` is the first placeholder that was left out before them. -/
def uriFrom (value? : String → Option String) :
    Option String → List Segment → Except String String
  | _, [] => .ok ""
  | gap?, segment :: segments =>
    match segment.contribution value?, gap? with
    | .missing name, _ => .error name
    | .gap name, _ => uriFrom value? (gap?.or (some name)) segments
    | .part _, some gap => .error gap
    | .part text, none => (uriFrom value? none segments).map fun rest => "/" ++ text ++ rest

/-- The URI of a pattern with the values that `value?` gives to names. Where there is no part at
all it is `/`. -/
def uriWith (pattern : Pattern) (value? : String → Option String) :
    Except RoutingError String :=
  if pattern.isRoot then .ok "/"
  else
    match uriFrom value? none pattern.segments with
    | .ok uri => .ok (if uri = "" then "/" else uri)
    | .error name => .error (.unresolvedPlaceholder pattern.source name)

/-- The URI of a pattern with the values of `args`. -/
def uri {α : Type u} [Arguments α] (pattern : Pattern) (args : α) : Except RoutingError String :=
  pattern.uriWith (Arguments.value? args)

end Pattern

end PathRouting
