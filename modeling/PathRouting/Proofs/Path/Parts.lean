import PathRouting.Path
import PathRouting.Text.Bytes

/-!
# The parts of a path

`parts` cuts a path at every slash. The texts of the parts hold no slash and their number is one
more than the number of slashes (`length_texts`), and each part is the slice of the path at its
offset (`isIn_of_mem_parts`).
-/

namespace PathRouting.Path

/-- The texts between the slashes of a path, in order. -/
def texts (path : String) : List String :=
  (path.toList.splitOn '/').map String.ofList

/-- A part is the slice of a path that starts at its offset. -/
def Part.IsIn (part : Part) (path : String) : Prop :=
  Text.slice? path part.offset (part.offset + part.text.utf8ByteSize) = some part.text

/-! ## Cutting at slashes -/

theorem slash_notMem_of_mem_splitOn {cs word : List Char} (h : word ∈ cs.splitOn '/') :
    '/' ∉ word := by
  induction cs generalizing word with
  | nil => simp_all
  | cons c cs ih =>
    rw [List.splitOn_cons_eq_if_modifyHead] at h
    split at h
    case isTrue hc =>
      rcases List.mem_cons.mp h with rfl | h
      · exact List.not_mem_nil
      · exact ih h
    case isFalse hc =>
      cases hs : cs.splitOn '/' with
      | nil => exact absurd hs (List.splitOn_ne_nil _ _)
      | cons first others =>
        rw [hs, List.modifyHead_cons] at h
        rcases List.mem_cons.mp h with rfl | h
        · have hfirst : '/' ∉ first := ih (by simp [hs])
          simp only [beq_iff_eq] at hc
          simp [hfirst, Ne.symm hc]
        · exact ih (by simp [hs, h])

theorem length_splitOn_slash (cs : List Char) :
    (cs.splitOn '/').length = cs.count '/' + 1 := by
  induction cs with
  | nil => rfl
  | cons c cs ih =>
    rw [List.splitOn_cons_eq_if_modifyHead, List.count_cons]
    split
    case isTrue hc => simp [ih]
    case isFalse hc => simp [ih]

/-- The number of texts is counted without cutting. -/
theorem length_texts (path : String) : (texts path).length = partCount path := by
  rw [texts, List.length_map, length_splitOn_slash, partCount]

theorem length_parts (path : String) : (parts path).length = partCount path := by
  rw [← length_texts, texts, ← map_text_parts, List.length_map]

theorem slash_notMem_of_mem_texts {path text : String} (h : text ∈ texts path) :
    '/' ∉ text.toList := by
  obtain ⟨word, hw, rfl⟩ := List.mem_map.mp h
  simpa using slash_notMem_of_mem_splitOn hw

theorem intercalate_texts (path : String) : "/".intercalate (texts path) = path := by
  apply String.toList_inj.mp
  simp [texts, Function.comp_def]

/-- Texts without a slash are the texts of the path that joins them. -/
theorem texts_intercalate {words : List String} (hs : ∀ word ∈ words, '/' ∉ word.toList)
    (hne : words ≠ []) : texts ("/".intercalate words) = words := by
  have hs' : ∀ word ∈ words.map String.toList, '/' ∉ word := by simpa using hs
  rw [texts, String.toList_intercalate]
  change List.map String.ofList ((['/'].intercalate (words.map String.toList)).splitOn '/') = words
  rw [List.splitOn_intercalate '/' hs' (by simpa using hne)]
  simp [Function.comp_def]

/-! ## Offsets -/

/-- The invariant of `locate`: with the texts already passed before it, a path is a text of
`offset` bytes and then the texts that are left, with slashes between them. -/
theorem isIn_of_mem_locate {path : String} {words : List String} {before : List Char}
    (hpath : path.toList = before ++ ['/'].intercalate (words.map String.toList)) {part : Part}
    (h : part ∈ locate (Text.byteSize before) words) : part.IsIn path := by
  induction words generalizing before with
  | nil => simp [locate] at h
  | cons word words ih =>
    rw [locate] at h
    rcases List.mem_cons.mp h with rfl | h
    · -- the part at the front: what follows it starts with a slash, or is nothing
      obtain ⟨after, hafter⟩ : ∃ after,
          ['/'].intercalate ((word :: words).map String.toList) = word.toList ++ after := by
        cases words with
        | nil => exact ⟨[], by simp⟩
        | cons next words =>
          refine ⟨'/' :: ['/'].intercalate ((next :: words).map String.toList), ?_⟩
          simp [List.intercalate_cons_cons]
      rw [Part.IsIn, Text.slice?_eq_some_iff]
      refine ⟨before, after, by rw [hpath, hafter], rfl, ?_⟩
      rw [Text.byteSize_toList]
    · cases words with
      | nil => simp [locate] at h
      | cons next words =>
        have hpath' : path.toList = (before ++ (word.toList ++ ['/'])) ++
            ['/'].intercalate ((next :: words).map String.toList) := by
          rw [hpath]
          simp [List.intercalate_cons_cons]
        have hsize : Text.byteSize (before ++ (word.toList ++ ['/'])) =
            Text.byteSize before + word.utf8ByteSize + 1 := by
          rw [Text.byteSize_append, Text.byteSize_append, Text.byteSize_toList, Nat.add_assoc]
          rfl
        rw [← hsize] at h
        exact ih hpath' h

/-- **Each part of a path is the slice of the path at its offset.** -/
theorem isIn_of_mem_parts {path : String} {part : Part} (h : part ∈ parts path) :
    part.IsIn path := by
  have hpath : path.toList = [] ++ ['/'].intercalate ((texts path).map String.toList) := by
    rw [List.nil_append]
    conv => lhs; rw [← intercalate_texts path]
    exact String.toList_intercalate
  exact isIn_of_mem_locate hpath h

theorem le_offset_of_mem_locate {offset : Nat} {words : List String} {part : Part}
    (h : part ∈ locate offset words) : offset ≤ part.offset := by
  induction words generalizing offset with
  | nil => simp [locate] at h
  | cons word words ih =>
    rw [locate] at h
    rcases List.mem_cons.mp h with rfl | h
    · exact Nat.le_refl _
    · have := ih h
      omega

/-- Each part ends before the parts behind it start. -/
theorem pairwise_locate (offset : Nat) (words : List String) :
    (locate offset words).Pairwise fun part later =>
      part.offset + part.text.utf8ByteSize < later.offset := by
  induction words generalizing offset with
  | nil => exact .nil
  | cons word words ih =>
    rw [locate]
    refine .cons (fun later hlater => ?_) (ih _)
    exact le_offset_of_mem_locate hlater

/-- An empty part stands at the end of every path. -/
theorem isIn_end (path : String) : Part.IsIn ⟨path.utf8ByteSize, ""⟩ path := by
  rw [Part.IsIn, Text.slice?_eq_some_iff]
  refine ⟨path.toList, [], by simp, Text.byteSize_toList path, ?_⟩
  rw [Text.byteSize_toList]

end PathRouting.Path
