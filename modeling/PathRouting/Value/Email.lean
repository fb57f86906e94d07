import PathRouting.Text.Bytes
import PathRouting.Text.Regex

/-!
# E-mail addresses

An address is a local part, an `@`, and a domain of at least two labels with dots between them.
A label has at most 63 characters, letters, digits and hyphens, and no hyphen at its ends. The
local part has at most 64 bytes: this is checked on what stands before the last `@`, apart from
the expression that describes the rest.
-/

namespace PathRouting.Email

open Text

/-- A character of the local part. -/
def isLocalChar (c : Char) : Bool :=
  c.isAlphanum || ".!#$%&'*+/=?^_`{|}~-".toList.contains c

/-- A character of a label. -/
def isLabelChar (c : Char) : Bool :=
  c.isAlphanum || c == '-'

/-- A label: a letter or digit, then nothing or at most 61 letters, digits and hyphens and
another letter or digit. -/
def label : Regex :=
  .seq (.one Char.isAlphanum)
    (.optional (.seq ((Regex.one isLabelChar).upTo 61) (.one Char.isAlphanum)))

/-- An address, its local part of any length. -/
def address : Regex :=
  .seq (.plus (.one isLocalChar))
    (.seq (.one (· == '@'))
      (.seq label (.plus (.seq (.one (· == '.')) label))))

/-- What stands before the last `@`. -/
def localPart? (value : List Char) : Option (List Char) :=
  match value.reverse.dropWhile (· ≠ '@') with
  | [] => none
  | _ :: before => some before.reverse

/-- The greatest number of bytes of a local part. -/
def localLimit : Nat := 64

/-- Whether a text is an e-mail address. -/
def isAddress (value : String) : Bool :=
  match localPart? value.toList with
  | some front => byteSize front ≤ localLimit && address.accepts value.toList
  | none => false

end PathRouting.Email
