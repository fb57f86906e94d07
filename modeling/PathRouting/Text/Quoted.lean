import PathRouting.Text.Unprintable

/-!
# Quoted texts

A text inside a message stands in double quotes. A quote or a backslash in it follows a
backslash, the usual blanks and the null character have a letter or digit of their own, and
every other character without a visible form is written by its code point. Hence the quote that
ends a quoted text is the first one that follows no backslash.
-/

namespace PathRouting.Text

/-- The code point of a character in lower-case hexadecimal digits between braces. -/
def escapeCode (c : Char) : List Char :=
  '\\' :: 'u' :: '{' :: (Nat.toDigits 16 c.toNat ++ ['}'])

/-- A character as it is written between quotes. -/
def escape (c : Char) : List Char :=
  match c with
  | '\x00' => ['\\', '0']
  | '\t' => ['\\', 't']
  | '\r' => ['\\', 'r']
  | '\n' => ['\\', 'n']
  | '"' => ['\\', '"']
  | '\\' => ['\\', '\\']
  | c => if isUnprintable c then escapeCode c else [c]

/-- A text in double quotes. -/
def quote (text : String) : String :=
  String.ofList ('"' :: (text.toList.flatMap escape ++ ['"']))

end PathRouting.Text
