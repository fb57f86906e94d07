import PathRouting.Text.Bytes

/-!
# Captures

What a match captures: the values of the named placeholders, in the order of the segments. A
value is kept as a span of the path and cut out of it when it is asked for. A match without
values keeps no path.
-/

namespace PathRouting

/-- Where the value of a name stands in a path, in bytes. -/
structure Span where
  name : String
  start : Nat
  stop : Nat
  deriving DecidableEq, Repr

/-- The values captured by a match. -/
structure Captures where
  path? : Option String
  spans : List Span
  deriving DecidableEq, Repr

namespace Span

/-- The value at a span of a path. -/
def value (span : Span) (path : String) : String :=
  (Text.slice? path span.start span.stop).getD ""

/-- The name and the value at a span of a path. -/
def pair (span : Span) (path : String) : String × String :=
  (span.name, span.value path)

end Span

namespace Captures

/-- No values. -/
def empty : Captures := ⟨none, []⟩

/-- The values at the spans of a path, which is kept only if there are any. -/
def ofSpans (path : String) (spans : List Span) : Captures :=
  ⟨if spans.isEmpty then none else some path, spans⟩

/-- The number of values. -/
def size (captures : Captures) : Nat :=
  captures.spans.length

/-- Whether there are no values. -/
def isEmpty (captures : Captures) : Bool :=
  captures.spans.isEmpty

/-- The first value of a name. -/
def get? (captures : Captures) (name : String) : Option String :=
  match captures.path? with
  | none => none
  | some path => captures.spans.findSome? fun span =>
      if span.name = name then some (span.value path) else none

/-- What a reader makes of the first value of a name. -/
def read? {α : Type u} (captures : Captures) (reader : String → α) (name : String) : Option α :=
  (captures.get? name).map reader

end Captures

end PathRouting
