import PathRouting.Captures.Basic
import Std.Data.HashMap
import Std.Data.TreeMap

/-!
# Arguments of a URI

Whatever gives values to names can fill the placeholders of a pattern: lists, arrays and vectors
of pairs, where the first pair of a name counts; maps, which hold one value for each name; and
the captures of a match.
-/

namespace PathRouting

/-- A source of values for the names of placeholders. -/
class Arguments (α : Type u) where
  /-- The value of a name, if the source has one. -/
  value? (args : α) (name : String) : Option String

namespace Arguments

instance : Arguments (List (String × String)) where
  value? pairs name := (pairs.find? (·.1 = name)).map Prod.snd

instance : Arguments (Array (String × String)) where
  value? pairs name := (pairs.find? (·.1 = name)).map Prod.snd

instance {n : Nat} : Arguments (Vector (String × String) n) where
  value? pairs name := (pairs.toArray.find? (·.1 = name)).map Prod.snd

instance : Arguments (Std.HashMap String String) where
  value? map name := map[name]?

instance : Arguments (Std.TreeMap String String) where
  value? map name := map[name]?

instance : Arguments Captures where
  value? captures name := captures.get? name

end Arguments

end PathRouting
