import Mathlib.Data.List.Forall2
import Mathlib.Data.List.Nodup
import PathRouting.Method

/-!
# Names of methods

A method is named by every text that differs from its name only in the case of ASCII letters
(`Method.IsNamedBy`). No text names two methods (`Method.IsNamedBy.unique`), and a text is read as
the method that it names, if there is one (`Method.ofName_eq_ok_iff`).
-/

namespace PathRouting

/-! ## Letters up to case -/

namespace Text

/-- Two characters are the same up to case if they are equal, or an ASCII capital and the small
letter of it. -/
def SameUpToCase (c d : Char) : Prop :=
  c = d ∨ (c.isUpper = true ∧ d.toNat = c.toNat + 32) ∨
    (d.isUpper = true ∧ c.toNat = d.toNat + 32)

instance (c d : Char) : Decidable (SameUpToCase c d) :=
  inferInstanceAs (Decidable (_ ∨ _))

theorem isUpper_iff {c : Char} : c.isUpper = true ↔ 65 ≤ c.toNat ∧ c.toNat ≤ 90 := by
  have hrange : c.isUpper = true ↔ 'A'.val ≤ c.val ∧ c.val ≤ 'Z'.val := decide_eq_true_iff
  exact hrange.trans (and_congr UInt32.le_iff_toNat_le UInt32.le_iff_toNat_le)

theorem toNat_toLower (c : Char) :
    c.toLower.toNat = if c.isUpper = true then c.toNat + 32 else c.toNat := by
  by_cases h : c.isUpper = true
  · have hlower : c.toLower.val = c.val + 32 :=
      congrArg Char.val (dif_pos (of_decide_eq_true h))
    have hle : c.val.toNat ≤ 90 := (isUpper_iff.mp h).2
    rw [if_pos h]
    calc c.toLower.toNat = (c.val + 32).toNat := congrArg UInt32.toNat hlower
      _ = (c.val.toNat + 32) % 2 ^ 32 := UInt32.toNat_add c.val 32
      _ = c.toNat + 32 := Nat.mod_eq_of_lt (by omega)
  · have hlower : c.toLower = c := dif_neg fun hrange => h (decide_eq_true hrange)
    rw [if_neg h, hlower]

theorem toLower_eq_toLower_iff {c d : Char} : c.toLower = d.toLower ↔ SameUpToCase c d := by
  rw [← Char.toNat_inj, toNat_toLower, toNat_toLower, SameUpToCase, ← Char.toNat_inj]
  simp only [isUpper_iff]
  split <;> split <;> omega

end Text

namespace Method

/-! ## Names up to case -/

/-- A text names a method if it is the name of the method up to case. -/
def IsNamedBy (method : Method) (text : String) : Prop :=
  List.Forall₂ Text.SameUpToCase method.name.toList text.toList

theorem foldCase_eq_foldCase_iff {method : Method} {text : String} :
    foldCase method.name = foldCase text ↔ method.IsNamedBy text := by
  rw [foldCase, foldCase, ← List.forall₂_eq_eq_eq, List.forall₂_map_left_iff,
    List.forall₂_map_right_iff, IsNamedBy]
  simp only [Text.toLower_eq_toLower_iff]

theorem mem_all (method : Method) : method ∈ all := by
  cases method <;> decide

/-- Names differ in more than case. -/
theorem eq_of_foldCase_eq {method other : Method} (h : foldCase method.name = foldCase other.name) :
    method = other :=
  List.inj_on_of_nodup_map (f := fun method => foldCase method.name) (by decide) (mem_all method)
    (mem_all other) h

/-- **No text names two methods.** -/
theorem IsNamedBy.unique {method other : Method} {text : String} (h : method.IsNamedBy text)
    (hother : other.IsNamedBy text) : other = method := by
  rw [← foldCase_eq_foldCase_iff] at h hother
  exact eq_of_foldCase_eq (hother.trans h.symm)

/-- Reading a name finds the method that it names, and fails if there is none. -/
theorem ofName_cases (text : String) :
    (∃ method : Method, method.IsNamedBy text ∧ ofName text = .ok method) ∨
      (∀ method : Method, ¬ method.IsNamedBy text) ∧
        ofName text = .error (.invalidMethod text) := by
  rw [ofName]
  split
  case h_1 method hfind =>
    have hname := List.find?_some hfind
    exact .inl ⟨method, foldCase_eq_foldCase_iff.mp (of_decide_eq_true hname), rfl⟩
  case h_2 hfind =>
    refine .inr ⟨fun method hname => ?_, rfl⟩
    rw [← foldCase_eq_foldCase_iff] at hname
    exact List.find?_eq_none.mp hfind method (mem_all method) (decide_eq_true hname)

theorem isNamedBy_name (method : Method) : method.IsNamedBy method.name :=
  foldCase_eq_foldCase_iff.mp rfl

/-- **A text is read as a method exactly if it names it.** -/
theorem ofName_eq_ok_iff {text : String} {method : Method} :
    ofName text = .ok method ↔ method.IsNamedBy text := by
  rcases ofName_cases text with ⟨found, hname, hok⟩ | ⟨hnone, herror⟩
  · rw [hok, Except.ok.injEq]
    constructor
    · rintro rfl
      exact hname
    · exact fun h => h.unique hname
  · rw [herror]
    exact iff_of_false nofun (hnone method)

/-- A text is refused exactly if it names no method. -/
theorem ofName_eq_error_iff {text : String} :
    ofName text = .error (.invalidMethod text) ↔ ∀ method : Method, ¬ method.IsNamedBy text := by
  rcases ofName_cases text with ⟨method, hname, hok⟩ | ⟨hnone, herror⟩
  · rw [hok]
    exact iff_of_false nofun fun h => h method hname
  · exact iff_of_true herror hnone

/-- A letter beyond ASCII is in no name, whatever letter it is a case of. -/
example : ofName "pOsT" = .ok .post ∧ ofName "poſt" = .error (.invalidMethod "poſt") := by
  decide +kernel

end Method

end PathRouting
