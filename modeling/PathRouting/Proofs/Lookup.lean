import Mathlib.Data.List.Nodup

/-!
# Looking items up by key

Where keys are distinct, the first item with a key is the only one (`find?_key_eq_some_iff`), so
that looking from behind finds it as well (`find?_key_reverse`).
-/

namespace PathRouting

variable {α : Type u} {β : Type v} [DecidableEq β] {key : α → β} {items : List α}

theorem find?_key_eq_some_iff (h : (items.map key).Nodup) {k : β} {item : α} :
    items.find? (key · = k) = some item ↔ item ∈ items ∧ key item = k := by
  induction items with
  | nil => simp
  | cons first items ih =>
    obtain ⟨hfirst, hitems⟩ := List.nodup_cons.mp h
    by_cases hkey : key first = k
    · rw [List.find?_cons_of_pos (by simpa using hkey), Option.some.injEq]
      constructor
      · rintro rfl
        exact ⟨List.mem_cons_self, hkey⟩
      · rintro ⟨hmem, hitem⟩
        rcases List.mem_cons.mp hmem with rfl | hmem
        · rfl
        · exact absurd (List.mem_map.mpr ⟨item, hmem, hitem.trans hkey.symm⟩) hfirst
    · rw [List.find?_cons_of_neg (by simpa using hkey), ih hitems, List.mem_cons]
      refine and_congr_left fun hitem => (or_iff_right ?_).symm
      rintro rfl
      exact hkey hitem

theorem find?_key_reverse (h : (items.map key).Nodup) (k : β) :
    items.reverse.find? (key · = k) = items.find? (key · = k) := by
  have hreverse : (items.reverse.map key).Nodup := by
    rw [List.map_reverse]
    exact List.nodup_reverse.mpr h
  ext item
  rw [find?_key_eq_some_iff h, find?_key_eq_some_iff hreverse, List.mem_reverse]

end PathRouting
