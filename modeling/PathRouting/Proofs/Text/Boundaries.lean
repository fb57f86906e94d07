import PathRouting.Text.Bytes

/-!
# Character boundaries

A position of a text is a character boundary if the text can be cut there (`isValid_iff`). Two
positions have a slice between them exactly if both are boundaries and they stand in order
(`isSome_slice?_iff`).
-/

namespace PathRouting.Text

variable {text : String} {start stop : Nat}

/-- A boundary is where characters in front end. -/
theorem isValid_iff :
    (⟨start⟩ : String.Pos.Raw).IsValid text ↔
      ∃ before after, text.toList = before ++ after ∧ byteSize before = start := by
  rw [String.Pos.Raw.isValid_iff_exists_append]
  constructor
  · rintro ⟨before, after, rfl, hstart⟩
    refine ⟨before.toList, after.toList, String.toList_append, ?_⟩
    rw [byteSize_toList]
    exact (congrArg String.Pos.Raw.byteIdx hstart).symm
  · rintro ⟨before, after, htext, rfl⟩
    refine ⟨String.ofList before, String.ofList after, ?_, ?_⟩
    · rw [← String.toList_inj, htext]
      simp
    · apply String.Pos.Raw.ext
      show byteSize before = (String.ofList before).utf8ByteSize
      rw [← byteSize_toList, String.toList_ofList]

/-- Of two cuts of a text the one with fewer bytes in front is the earlier one. -/
theorem exists_eq_append_of_byteSize_le {before after before' after' : List Char}
    (h : before ++ after = before' ++ after') (hle : byteSize before ≤ byteSize before') :
    ∃ middle, before' = before ++ middle := by
  rcases List.append_eq_append_iff.mp h with ⟨middle, rfl, -⟩ | ⟨middle, rfl, -⟩
  · exact ⟨middle, rfl⟩
  · rw [byteSize_append] at hle
    have hmiddle : middle = [] := Classical.byContradiction fun hne => by
      have := byteSize_pos hne
      omega
    exact ⟨[], by simp [hmiddle]⟩

theorem isSome_slice?_iff :
    (slice? text start stop).isSome ↔ start ≤ stop ∧
      (⟨start⟩ : String.Pos.Raw).IsValid text ∧ (⟨stop⟩ : String.Pos.Raw).IsValid text := by
  rw [isValid_iff, isValid_iff, Option.isSome_iff_exists]
  constructor
  · rintro ⟨part, h⟩
    obtain ⟨before, after, htext, hbefore, hpart⟩ := slice?_eq_some_iff.mp h
    refine ⟨by omega, ⟨before, _, htext, hbefore⟩, before ++ part.toList, after, ?_, ?_⟩
    · rw [htext, List.append_assoc]
    · rw [byteSize_append, hbefore, hpart]
  · rintro ⟨hle, ⟨before, after, htext, rfl⟩, before', after', htext', rfl⟩
    obtain ⟨middle, rfl⟩ := exists_eq_append_of_byteSize_le (htext.symm.trans htext') hle
    refine ⟨String.ofList middle, slice?_eq_some_iff.mpr ⟨before, after', ?_, rfl, ?_⟩⟩
    · rw [htext', List.append_assoc, String.toList_ofList]
    · rw [byteSize_append, String.toList_ofList]

end PathRouting.Text
