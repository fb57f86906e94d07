/-!
# Internet addresses

An address of version 4 is four numbers below 256 with dots between them, written without
leading zeros. One of version 6 is eight groups of one to four hexadecimal digits with colons
between them; once, `::` may stand for one group or more, and the last two groups may be written
as an address of version 4.

Each reader takes the characters from its start on and gives those that follow what it read.
-/

namespace PathRouting.IpAddress

/-- What follows the character `c`. -/
def after? (c : Char) : List Char → Option (List Char)
  | d :: cs => if d = c then some cs else none
  | [] => none

/-! ## Version 4 -/

/-- One to three decimal digits, a leading zero only alone, that denote a number below 256. -/
def isOctet (digits : List Char) : Bool :=
  0 < digits.length && digits.length ≤ 3 &&
    (digits.head? != some '0' || digits.length == 1) &&
    Nat.ofDigitChars 10 digits 0 < 256

/-- What follows a number of an address of version 4, which extends over all digits. -/
def afterOctet? (cs : List Char) : Option (List Char) :=
  if isOctet (cs.takeWhile Char.isDigit) then some (cs.dropWhile Char.isDigit) else none

/-- What follows an address of version 4. -/
def afterVersion4? (cs : List Char) : Option (List Char) := do
  let cs ← afterOctet? cs
  let cs ← after? '.' cs
  let cs ← afterOctet? cs
  let cs ← after? '.' cs
  let cs ← afterOctet? cs
  let cs ← after? '.' cs
  afterOctet? cs

/-! ## Version 6 -/

/-- A hexadecimal digit of either case. -/
def isHexDigit (c : Char) : Bool :=
  c.isDigit || ('a' ≤ c && c ≤ 'f') || ('A' ≤ c && c ≤ 'F')

/-- What follows a group of one to four hexadecimal digits, which extends over all of them. -/
def afterGroup? (cs : List Char) : Option (List Char) :=
  let digits := cs.takeWhile isHexDigit
  if 0 < digits.length && digits.length ≤ 4 then some (cs.dropWhile isHexDigit) else none

/-- A row of groups: how many there are, whether the last two were written as an address of
version 4, and what follows. -/
structure Groups where
  count : Nat
  endsInVersion4 : Bool
  rest : List Char

/-- Reads as many groups as there are, at most `room` more when `count` are read. An address
of version 4 needs room for two groups and ends the row. -/
def readGroups (count : Nat) : Nat → List Char → Groups
  | 0, cs => ⟨count, false, cs⟩
  | room + 1, cs =>
    let next? := if count = 0 then some cs else after? ':' cs
    match if room = 0 then none else next?.bind afterVersion4? with
    | some rest => ⟨count + 2, true, rest⟩
    | none =>
      match next?.bind afterGroup? with
      | some rest => readGroups (count + 1) room rest
      | none => ⟨count, false, cs⟩

/-- What follows an address of version 6: eight groups, or fewer with `::` between two rows,
of which the first may not end in an address of version 4. -/
def afterVersion6? (cs : List Char) : Option (List Char) :=
  let front := readGroups 0 8 cs
  if front.count = 8 then
    some front.rest
  else if front.endsInVersion4 then
    none
  else do
    let cs ← after? ':' front.rest
    let cs ← after? ':' cs
    return (readGroups 0 (7 - front.count) cs).rest

/-! ## Either version -/

/-- Whether a text is an internet address. One that starts with an address of version 4 is not
read as one of version 6. -/
def isAddress (value : String) : Bool :=
  match afterVersion4? value.toList with
  | some rest => rest.isEmpty
  | none => (afterVersion6? value.toList).any List.isEmpty

end PathRouting.IpAddress
