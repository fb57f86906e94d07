import Mathlib.Data.Nat.Digits.Defs
import PathRouting.Value.Reading
import PathRouting.Value.ValueType

/-!
# Reading digits as integers

Digits denote a number by their places, the last one counting ones (`Decimal.value`). Reading them
from the left goes through the numbers that their beginnings denote, which never get smaller, so
that the reader leaves its range exactly if the whole number lies outside it (`readDigits_eq`). A
text of digits only is read as its number, and the one thing that can be wrong with it is that the
number is too large (`readInteger_eq`).
-/

namespace PathRouting

namespace Decimal

/-- The number that a digit stands for. -/
def digit (c : Char) : Nat :=
  c.toNat - '0'.toNat

/-- The number that digits denote: the last one counts ones, the one before it tens. -/
def value (digits : List Char) : Nat :=
  Nat.ofDigits 10 (digits.reverse.map digit)

theorem value_cons (c : Char) (digits : List Char) :
    value (c :: digits) = digit c * 10 ^ digits.length + value digits := by
  rw [value, List.reverse_cons, List.map_append, Nat.ofDigits_append, List.length_map,
    List.length_reverse, List.map_singleton, Nat.ofDigits_singleton, value]
  ring

end Decimal

theorem ValueType.accepts_int_iff {value : String} :
    int.accepts value = true ↔ value ≠ "" ∧ ∀ c ∈ value.toList, c.isDigit = true := by
  simp [accepts]

variable {range : IntegerRange} {digits : List Char}

/-- What is read from the digits behind a number in range. -/
theorem readDigits_eq (hleast : range.least ≤ 0) (hdigits : ∀ c ∈ digits, c.isDigit = true)
    {n : Nat} (hn : (n : Int) ≤ range.greatest) :
    readDigits range 1 n digits =
      let whole : Nat := n * 10 ^ digits.length + Decimal.value digits
      if (whole : Int) ≤ range.greatest then .ok (whole : Int) else .error .tooLarge := by
  induction digits generalizing n with
  | nil =>
    have hwhole : n * 10 ^ ([] : List Char).length + Decimal.value [] = n := by
      simp [Decimal.value]
    dsimp only
    rw [hwhole, if_pos hn, readDigits]
  | cons c digits ih =>
    obtain ⟨hc, hdigits⟩ := List.forall_mem_cons.mp hdigits
    have hnext : 10 * (n : Int) + 1 * (c.toNat - '0'.toNat : Nat) =
        (10 * n + Decimal.digit c : Nat) := by
      rw [Decimal.digit]
      push_cast
      ring
    have hwhole : n * 10 ^ (c :: digits).length + Decimal.value (c :: digits) =
        (10 * n + Decimal.digit c) * 10 ^ digits.length + Decimal.value digits := by
      rw [Decimal.value_cons, List.length_cons, pow_succ]
      ring
    dsimp only at ih ⊢
    rw [readDigits, if_pos hc, hnext, hwhole]
    generalize 10 * n + Decimal.digit c = next
    by_cases hlarge : range.greatest < next
    · -- the number read so far is too large already, and the whole one is not smaller
      have hle : next ≤ next * 10 ^ digits.length + Decimal.value digits :=
        (Nat.le_mul_of_pos_right next (by positivity)).trans (Nat.le_add_right _ _)
      rw [if_pos hlarge, if_neg (by omega)]
    · rw [if_neg hlarge, if_neg (by omega)]
      exact ih hdigits (by omega)

theorem readInteger_eq_readDigits {text : String} (hne : text ≠ "")
    (hdigits : ∀ c ∈ text.toList, c.isDigit = true) :
    readInteger range text = readDigits range 1 0 text.toList := by
  have hsign : ∀ c ∈ text.toList, c ≠ '+' ∧ c ≠ '-' := by
    intro c hc
    have hdigit := hdigits c hc
    constructor <;> rintro rfl <;> exact absurd hdigit (by decide)
  rw [readInteger]
  split
  case h_1 heq => exact absurd (String.toList_eq_nil_iff.mp heq) hne
  case h_2 heq => exact absurd rfl (hsign '+' (by simp [heq])).1
  case h_3 heq => exact absurd rfl (hsign '-' (by simp [heq])).2
  case h_4 heq => exact absurd rfl (hsign '+' (by simp [heq])).1
  case h_5 heq => exact absurd rfl (hsign '-' (by simp [heq])).2
  case h_6 => rfl

/-- **A text of digits is read as the number that they denote**, or is too large. -/
theorem readInteger_eq {text : String} (hleast : range.least ≤ 0) (hgreatest : 0 ≤ range.greatest)
    (hne : text ≠ "") (hdigits : ∀ c ∈ text.toList, c.isDigit = true) :
    readInteger range text =
      if (Decimal.value text.toList : Int) ≤ range.greatest then
        .ok (Decimal.value text.toList : Int)
      else .error .tooLarge := by
  have hread := readDigits_eq hleast hdigits (n := 0) hgreatest
  rw [readInteger_eq_readDigits hne hdigits]
  simpa using hread

end PathRouting
