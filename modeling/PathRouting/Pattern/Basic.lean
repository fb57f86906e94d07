import PathRouting.Path
import PathRouting.Pattern.Token
import PathRouting.Segment

/-!
# Patterns

A pattern is a text, with the segments that its tokens stand for and the normal form of the text
as a path.
-/

namespace PathRouting

namespace Segment

/-- The segment that a token of a text stands for. -/
def ofToken? (text : String) (token : Pattern.Token) : Option Segment :=
  (Text.slice? text token.start token.stop).map fun part =>
    match token.kind with
    | .literal => .literal part
    | .placeholder => .placeholder (.ofSpec part)

/-- Compiles the text of a pattern to the segments of its tokens, in order. -/
def compile (text : String) : List Segment :=
  (Pattern.tokens text).filterMap (ofToken? text)

end Segment

/-- A compiled pattern: its text, the normal form of the text, and its segments. -/
structure Pattern where
  source : String
  normalized : String
  segments : List Segment
  deriving DecidableEq, Repr

namespace Pattern

/-- Compiles a text to a pattern. -/
def compile (text : String) : Pattern where
  source := text
  normalized := Path.normalize text
  segments := Segment.compile text

/-- Whether the pattern is `/` itself. -/
def isRoot (pattern : Pattern) : Bool :=
  pattern.source == "/"

/-- The placeholders of a pattern, in order. -/
def placeholders (pattern : Pattern) : List Placeholder :=
  pattern.segments.filterMap Segment.placeholder?

end Pattern

end PathRouting
