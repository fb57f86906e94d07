/-!
# Reading values as numbers and truth values

An integer is an optional sign and decimal digits. It is read from the left, and the first thing
that is wrong is reported: a character that is no digit, or a number that has left its range.
-/

namespace PathRouting

/-! ## Integers -/

/-- The integers between two bounds. -/
structure IntegerRange where
  least : Int
  greatest : Int

namespace IntegerRange

/-- Unsigned integers of eight bits. -/
def uint8 : IntegerRange := ⟨0, 255⟩

/-- Unsigned integers of 32 bits. -/
def uint32 : IntegerRange := ⟨0, 4294967295⟩

/-- Signed integers of 64 bits. -/
def int64 : IntegerRange := ⟨-9223372036854775808, 9223372036854775807⟩

end IntegerRange

/-- Why a text is not an integer of a range. -/
inductive IntegerError where
  | empty
  | invalidDigit
  | tooLarge
  | tooSmall
  deriving DecidableEq, Repr

/-- The text of an error. -/
def IntegerError.message : IntegerError → String
  | .empty => "cannot parse integer from empty string"
  | .invalidDigit => "invalid digit found in string"
  | .tooLarge => "number too large to fit in target type"
  | .tooSmall => "number too small to fit in target type"

/-- Reads digits after the integer `n`. The sign `1` or `-1` says on which side of `n` the
integers lie that continue it. -/
def readDigits (range : IntegerRange) (sign : Int) : Int → List Char → Except IntegerError Int
  | n, [] => .ok n
  | n, c :: cs =>
    if c.isDigit then
      let next := 10 * n + sign * (c.toNat - '0'.toNat : Nat)
      if range.greatest < next then .error .tooLarge
      else if next < range.least then .error .tooSmall
      else readDigits range sign next cs
    else
      .error .invalidDigit

/-- Reads a text as an integer of the range. A minus sign is read only where negative integers
are in range, and a sign alone is no integer. -/
def readInteger (range : IntegerRange) (text : String) : Except IntegerError Int :=
  match text.toList with
  | [] => .error .empty
  | ['+'] => .error .invalidDigit
  | ['-'] => .error .invalidDigit
  | '+' :: digits => readDigits range 1 0 digits
  | '-' :: digits =>
    if range.least < 0 then readDigits range (-1) 0 digits else .error .invalidDigit
  | digits => readDigits range 1 0 digits

/-! ## Truth values -/

/-- Why a text is not a truth value. -/
inductive BooleanError where
  | neither
  deriving DecidableEq, Repr

/-- The text of an error. -/
def BooleanError.message : BooleanError → String
  | .neither => "provided string was not `true` or `false`"

/-- Reads a text as a truth value. -/
def readBoolean (text : String) : Except BooleanError Bool :=
  if text = "true" then .ok true
  else if text = "false" then .ok false
  else .error .neither

end PathRouting
