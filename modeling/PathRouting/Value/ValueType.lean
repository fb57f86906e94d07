import PathRouting.Value.Email
import PathRouting.Value.IpAddress

/-!
# Types of placeholder values

The type of a placeholder says which texts it stands for. A name that is not the name of a type
is kept as a custom type, which accepts every text.
-/

namespace PathRouting

/-- The type of the values of a placeholder. -/
inductive ValueType where
  /-- No type is written: every text, also the empty one. -/
  | untyped
  /-- One or more decimal digits. -/
  | int
  /-- Every text. -/
  | string
  /-- An e-mail address. -/
  | email
  /-- An internet address. -/
  | ip
  /-- Every text, under a name of its own. -/
  | custom (name : String)
  deriving DecidableEq, Repr

namespace ValueType

/-- The type that a name stands for. -/
def ofName (name : String) : ValueType :=
  if name = "" then .untyped
  else if name = "int" then .int
  else if name = "string" then .string
  else if name = "email" then .email
  else if name = "ip" then .ip
  else .custom name

/-- The name of a type, which `ofName` reads back unless a custom type carries the name of
another. -/
def name : ValueType → String
  | .untyped => ""
  | .int => "int"
  | .string => "string"
  | .email => "email"
  | .ip => "ip"
  | .custom name => name

/-- Whether a text is a value of the type. -/
def accepts : ValueType → String → Bool
  | .untyped, _ => true
  | .int, value => !value.isEmpty && value.toList.all Char.isDigit
  | .string, _ => true
  | .email, value => Email.isAddress value
  | .ip, value => IpAddress.isAddress value
  | .custom _, _ => true

theorem name_ofName (text : String) : (ofName text).name = text := by
  unfold ofName
  repeat' split
  all_goals simp_all [name]

end ValueType

end PathRouting
