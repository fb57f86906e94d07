import PathRouting.Captures.Basic

/-!
# Walking through captures

A cursor walks through captured values from both ends. Each step takes a value off one end and
gives the cursor to what is left; once the ends have met, both give none. A cursor of pairs
gives names with their values, a cursor of values gives the values alone.
-/

namespace PathRouting

/-- A cursor of names and values: the spans of a path that it has not passed. -/
structure PairCursor where
  path : String
  spans : List Span
  deriving DecidableEq, Repr

namespace PairCursor

/-- The pair at the front, and the cursor past it. -/
def next (cursor : PairCursor) : Option (String × String) × PairCursor :=
  match cursor.spans with
  | [] => (none, cursor)
  | span :: spans => (some (span.pair cursor.path), { cursor with spans })

/-- The pair at the back, and the cursor before it. -/
def nextBack (cursor : PairCursor) : Option (String × String) × PairCursor :=
  match cursor.spans.getLast? with
  | none => (none, cursor)
  | some span => (some (span.pair cursor.path), { cursor with spans := cursor.spans.dropLast })

/-- The number of pairs that are left. -/
def length (cursor : PairCursor) : Nat :=
  cursor.spans.length

/-- Bounds for the number of pairs that are left, of which the upper one may be missing. -/
def bounds (cursor : PairCursor) : Nat × Option Nat :=
  (cursor.spans.length, some cursor.spans.length)

/-- The pairs that are left, from the front. -/
def toList (cursor : PairCursor) : List (String × String) :=
  cursor.spans.map (·.pair cursor.path)

theorem length_eq_length_toList (cursor : PairCursor) :
    cursor.length = cursor.toList.length := by
  simp [length, toList]

theorem fst_next (cursor : PairCursor) : cursor.next.1 = cursor.toList.head? := by
  unfold next toList
  split <;> simp_all

theorem toList_snd_next (cursor : PairCursor) : cursor.next.2.toList = cursor.toList.tail := by
  unfold next toList
  split <;> simp_all

theorem fst_nextBack (cursor : PairCursor) : cursor.nextBack.1 = cursor.toList.getLast? := by
  unfold nextBack toList
  split <;> simp_all

theorem toList_snd_nextBack (cursor : PairCursor) :
    cursor.nextBack.2.toList = cursor.toList.dropLast := by
  unfold nextBack toList
  split <;> simp_all

end PairCursor

/-- A cursor of values. -/
structure ValueCursor where
  pairs : PairCursor
  deriving DecidableEq, Repr

namespace ValueCursor

/-- The value at the front, and the cursor past it. -/
def next (cursor : ValueCursor) : Option String × ValueCursor :=
  (cursor.pairs.next.1.map Prod.snd, ⟨cursor.pairs.next.2⟩)

/-- The value at the back, and the cursor before it. -/
def nextBack (cursor : ValueCursor) : Option String × ValueCursor :=
  (cursor.pairs.nextBack.1.map Prod.snd, ⟨cursor.pairs.nextBack.2⟩)

/-- The number of values that are left. -/
def length (cursor : ValueCursor) : Nat :=
  cursor.pairs.length

/-- Bounds for the number of values that are left, of which the upper one may be missing. -/
def bounds (cursor : ValueCursor) : Nat × Option Nat :=
  cursor.pairs.bounds

/-- The values that are left, from the front. -/
def toList (cursor : ValueCursor) : List String :=
  cursor.pairs.toList.map Prod.snd

end ValueCursor

namespace Captures

/-- A cursor at both ends of the names and values. -/
def pairCursor (captures : Captures) : PairCursor :=
  ⟨captures.path?.getD "", captures.spans⟩

/-- A cursor at both ends of the values. -/
def valueCursor (captures : Captures) : ValueCursor :=
  ⟨captures.pairCursor⟩

/-- The names and values, in the order of the segments. -/
def toList (captures : Captures) : List (String × String) :=
  captures.pairCursor.toList

/-- The values, in the order of the segments. -/
def values (captures : Captures) : List String :=
  captures.valueCursor.toList

end Captures

end PathRouting
