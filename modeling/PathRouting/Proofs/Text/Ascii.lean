import PathRouting.Text.Bytes

/-!
# Bytes of ASCII characters

In UTF-8 a character of ASCII is one byte, its own code, and every byte of another character is
at least 128 (`utf8EncodeChar_ascii`, `le_toNat_of_mem_utf8EncodeChar`). Hence a byte of ASCII at
a character boundary says which character stands there (`head?_flatMap_utf8EncodeChar`), and a
class of characters within ASCII can be followed byte by byte
(`takeWhile_flatMap_utf8EncodeChar`).
-/

namespace PathRouting.Text

/-! ## One character -/

theorem utf8Size_ascii {c : Char} (h : c.toNat < 128) : c.utf8Size = 1 := by
  rw [Char.utf8Size_eq_one_iff, UInt32.le_iff_toNat_le]
  exact Nat.le_of_lt_succ h

theorem utf8EncodeChar_ascii {c : Char} (h : c.toNat < 128) :
    String.utf8EncodeChar c = [c.toUInt8] :=
  String.utf8EncodeChar_eq_singleton (utf8Size_ascii h)

theorem le_toNat_of_mem_utf8EncodeChar {c : Char} (h : ¬ c.toNat < 128) {b : UInt8}
    (hb : b ∈ String.utf8EncodeChar c) : 128 ≤ b.toNat := by
  have hc : ¬ c.val.toNat ≤ 127 := fun hle => h (Nat.lt_succ_of_le hle)
  simp only [String.utf8EncodeChar, if_neg hc] at hb
  -- a leading byte and the bytes that continue it carry a high mark each
  split at hb
  case isTrue =>
    simp only [List.mem_cons, List.not_mem_nil, or_false] at hb
    rcases hb with rfl | rfl <;> simp only [UInt8.toNat_ofNat'] <;> omega
  case isFalse =>
    split at hb
    case isTrue =>
      simp only [List.mem_cons, List.not_mem_nil, or_false] at hb
      rcases hb with rfl | rfl | rfl <;> simp only [UInt8.toNat_ofNat'] <;> omega
    case isFalse =>
      simp only [List.mem_cons, List.not_mem_nil, or_false] at hb
      rcases hb with rfl | rfl | rfl | rfl <;> simp only [UInt8.toNat_ofNat'] <;> omega

theorem exists_utf8EncodeChar_eq_cons {c : Char} (h : ¬ c.toNat < 128) :
    ∃ b bs, String.utf8EncodeChar c = b :: bs ∧ 128 ≤ b.toNat := by
  obtain ⟨b, bs, hbs⟩ := List.exists_cons_of_length_pos
    (l := String.utf8EncodeChar c) (by simpa using c.utf8Size_pos)
  exact ⟨b, bs, hbs, le_toNat_of_mem_utf8EncodeChar h (by simp [hbs])⟩

theorem toNat_toUInt8 {c : Char} (h : c.toNat < 128) : c.toUInt8.toNat = c.toNat := by
  rw [Char.toUInt8, UInt32.toNat_toUInt8]
  exact Nat.mod_eq_of_lt (Nat.lt_trans h (by decide))

theorem toNat_ofUInt8 (b : UInt8) : (Char.ofUInt8 b).toNat = b.toNat := rfl

theorem ofUInt8_toUInt8 {c : Char} (h : c.toNat < 128) : Char.ofUInt8 c.toUInt8 = c := by
  apply Char.toNat_inj.mp
  rw [toNat_ofUInt8, toNat_toUInt8 h]

/-! ## Lists of characters -/

/-- The first byte of some characters is a byte of ASCII exactly if their first character is. -/
theorem head?_flatMap_utf8EncodeChar {d : Char} (hd : d.toNat < 128) (cs : List Char) :
    (cs.flatMap String.utf8EncodeChar).head? = some d.toUInt8 ↔ cs.head? = some d := by
  cases cs with
  | nil => simp
  | cons c cs =>
    rw [List.flatMap_cons, List.head?_cons, Option.some.injEq]
    by_cases hc : c.toNat < 128
    · rw [utf8EncodeChar_ascii hc, List.singleton_append, List.head?_cons, Option.some.injEq]
      constructor
      · intro h
        rw [← ofUInt8_toUInt8 hc, h, ofUInt8_toUInt8 hd]
      · rintro rfl
        rfl
    · constructor
      · intro h
        obtain ⟨b, bs, hbs, hb⟩ := exists_utf8EncodeChar_eq_cons hc
        rw [hbs, List.cons_append, List.head?_cons, Option.some.injEq] at h
        rw [h, toNat_toUInt8 hd] at hb
        omega
      · rintro rfl
        exact absurd hd hc

/-- The bytes of the characters in front that belong to a class within ASCII. -/
theorem takeWhile_flatMap_utf8EncodeChar {p : Char → Bool} (hp : ∀ c, p c = true → c.toNat < 128)
    (cs : List Char) :
    (cs.flatMap String.utf8EncodeChar).takeWhile (fun b => p (Char.ofUInt8 b)) =
      (cs.takeWhile p).flatMap String.utf8EncodeChar := by
  induction cs with
  | nil => rfl
  | cons c cs ih =>
    by_cases hc : c.toNat < 128
    · rw [List.flatMap_cons, utf8EncodeChar_ascii hc, List.singleton_append, List.takeWhile_cons,
        List.takeWhile_cons, ofUInt8_toUInt8 hc]
      split
      case isTrue h => rw [ih, List.flatMap_cons, utf8EncodeChar_ascii hc, List.singleton_append]
      case isFalse h => rfl
    · have hpc : p c = false := Bool.eq_false_iff.mpr fun h => hc (hp c h)
      obtain ⟨b, bs, hbs, hb⟩ := exists_utf8EncodeChar_eq_cons hc
      have hpb : p (Char.ofUInt8 b) = false := Bool.eq_false_iff.mpr fun h => by
        have := hp _ h
        rw [toNat_ofUInt8] at this
        omega
      rw [List.flatMap_cons, hbs, List.cons_append, List.takeWhile_cons_of_neg (by simp [hpb]),
        List.takeWhile_cons_of_neg (by simp [hpc])]
      rfl

end PathRouting.Text
