/-!
# Request paths

A path is a text whose parts stand between slashes. Paths that differ only in repeated,
leading or trailing slashes are the same request, and `normalize` chooses the one to work with:
a path of slashes only becomes `/`, any other has single slashes between its parts and none at
its ends. The empty path stays empty.

`parts` cuts a path at every slash and says at which byte each part starts. The path `/` has two
empty parts, the empty path has one.
-/

namespace PathRouting.Path

/-! ## The normal form -/

/-- Whether two slashes stand side by side. -/
def hasDoubledSlash : List Char → Bool
  | [] => false
  | c :: cs => (c == '/' && cs.head? == some '/') || hasDoubledSlash cs

/-- Each run of slashes as a single slash. -/
def collapse : List Char → List Char
  | [] => []
  | c :: cs => if c = '/' ∧ cs.head? = some '/' then collapse cs else c :: collapse cs

/-- The characters after a slash at the start. -/
def dropLeadingSlash : List Char → List Char
  | '/' :: cs => cs
  | cs => cs

/-- The characters before a slash at the end. -/
def dropTrailingSlash (cs : List Char) : List Char :=
  if cs.getLast? = some '/' then cs.dropLast else cs

/-- One slash less at either end. A single slash is left as it is. -/
def trim (cs : List Char) : List Char :=
  if cs = ['/'] then cs else dropTrailingSlash (dropLeadingSlash cs)

/-- The path with single slashes between its parts and none at its ends, or `/` if it consists
of slashes. A path without doubled slashes is only trimmed. -/
def normalize (path : String) : String :=
  String.ofList <| trim <|
    if hasDoubledSlash path.toList then collapse path.toList else path.toList

/-! ## Parts -/

/-- A part of a path: its text, and the byte of the path at which it starts. -/
structure Part where
  offset : Nat
  text : String
  deriving DecidableEq, Repr

/-- The number of parts of a path, one more than its slashes. -/
def partCount (path : String) : Nat :=
  path.toList.count '/' + 1

/-- Consecutive texts with a slash after each, as parts from byte `offset` on. -/
def locate (offset : Nat) : List String → List Part
  | [] => []
  | text :: texts => ⟨offset, text⟩ :: locate (offset + text.utf8ByteSize + 1) texts

/-- The parts of a path, in order. -/
def parts (path : String) : List Part :=
  locate 0 ((path.toList.splitOn '/').map String.ofList)

@[simp] theorem map_text_locate (offset : Nat) (texts : List String) :
    (locate offset texts).map Part.text = texts := by
  induction texts generalizing offset with
  | nil => rfl
  | cons text texts ih => rw [locate, List.map_cons, ih]

theorem map_text_parts (path : String) :
    (parts path).map Part.text = (path.toList.splitOn '/').map String.ofList :=
  map_text_locate 0 _

end PathRouting.Path
