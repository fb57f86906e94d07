import PathRouting.Captures.Basic
import PathRouting.Pattern.Basic

/-!
# Matching paths

A path is brought to its normal form and compared part by part with the segments of a pattern.
Segments without a part see an empty one at the end of the path, and a path with more parts than
there are segments does not match.

Before that the path is compared with the text of the pattern: a path with the same normal form
matches, whatever the pattern's placeholders are, and captures nothing.
-/

namespace PathRouting

/-- The span of a part of a path, as the value of a name. -/
def Span.ofPart (name : String) (part : Path.Part) : Span :=
  ⟨name, part.offset, part.offset + part.text.utf8ByteSize⟩

/-- What a segment makes of the part of a path at its place. -/
inductive Segment.Verdict where
  /-- The path does not match. -/
  | refused
  /-- The path may match, and no value is captured here. -/
  | passed
  /-- The path may match, and the part is the value of a name. -/
  | captured (name : String)
  deriving DecidableEq, Repr

/-- Judges a part. An empty literal and an unnamed placeholder pass every part. An optional
placeholder passes an empty part and a part that is no value of its type. -/
def Segment.judge : Segment → String → Verdict
  | .literal text, part => if text ≠ "" ∧ text ≠ part then .refused else .passed
  | .placeholder p, part =>
    if p.name = "" ∨ (p.isOptional ∧ part = "") then .passed
    else if p.valueType.accepts part then .captured p.name
    else if p.isOptional then .passed
    else .refused

namespace Pattern

/-- The first of some parts, or an empty part at byte `stop` if there is none. -/
def firstPart (stop : Nat) (parts : List Path.Part) : Path.Part :=
  parts.head?.getD ⟨stop, ""⟩

/-- Compares segments with parts, in order, and collects the spans of the captured values. A
segment without a part sees an empty part at byte `stop`. -/
def spansFrom? (stop : Nat) : List Segment → List Path.Part → Option (List Span)
  | [], _ => some []
  | segment :: segments, parts =>
    match segment.judge (firstPart stop parts).text with
    | .refused => none
    | .passed => spansFrom? stop segments parts.tail
    | .captured name =>
      (spansFrom? stop segments parts.tail).map (.ofPart name (firstPart stop parts) :: ·)

/-- The spans of the values that segments capture in a path of normal form, if they match. -/
def spans? (segments : List Segment) (path : String) : Option (List Span) :=
  if segments.length < Path.partCount path then none
  else spansFrom? path.utf8ByteSize segments (Path.parts path)

/-- Matches a path. -/
def find? (pattern : Pattern) (path : String) : Option Captures :=
  let path := Path.normalize path
  if path = pattern.normalized then some .empty
  else (spans? pattern.segments path).map (.ofSpans path)

/-- Whether a path matches. -/
def isMatch (pattern : Pattern) (path : String) : Bool :=
  let path := Path.normalize path
  path == pattern.normalized || (spans? pattern.segments path).isSome

theorem isMatch_eq_isSome_find? (pattern : Pattern) (path : String) :
    pattern.isMatch path = (pattern.find? path).isSome := by
  unfold isMatch find?
  by_cases h : Path.normalize path = pattern.normalized <;> simp [h]

end Pattern

end PathRouting
