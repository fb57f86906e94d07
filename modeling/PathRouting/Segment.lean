import PathRouting.Value.ValueType

/-!
# Segments of a pattern

A compiled pattern is a list of segments, one for each part of the paths it serves. A literal
stands for itself. A placeholder stands for a value under a name; its written form is
`name:type`, where a `?` after the name or the type makes it optional.
-/

namespace PathRouting

/-- A placeholder: the name of its value, the type of it, and whether it may be left out. -/
structure Placeholder where
  name : String
  valueType : ValueType
  isOptional : Bool
  deriving DecidableEq, Repr

/-- What stands at one part of a path. -/
inductive Segment where
  | literal (text : String)
  | placeholder (placeholder : Placeholder)
  deriving DecidableEq, Repr

namespace Segment

/-- The placeholder of a segment that is one. -/
def placeholder? : Segment → Option Placeholder
  | .literal _ => none
  | .placeholder p => some p

end Segment

namespace Placeholder

/-- A text without the `?` at its end, and whether there was one. -/
def splitMark (cs : List Char) : List Char × Bool :=
  if cs.getLast? = some '?' then (cs.dropLast, true) else (cs, false)

/-- Reads the written form of a placeholder. The first `:` ends the name, and one `?` is taken
off the end of the name and of the type. -/
def ofSpec (spec : String) : Placeholder :=
  let name := splitMark (spec.toList.takeWhile (· ≠ ':'))
  let type := splitMark (spec.toList.dropWhile (· ≠ ':')).tail
  { name := String.ofList name.1
    valueType := .ofName (String.ofList type.1)
    isOptional := name.2 || type.2 }

end Placeholder

end PathRouting
