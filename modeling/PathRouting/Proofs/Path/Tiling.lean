import Mathlib.Data.List.Chain
import PathRouting.Proofs.Path.Parts

/-!
# The parts of a path side by side

The parts of a path cover it, with a slash between each two of them: the first part starts with the
path, each other one behind the slash at the end of the part before it (`isChain_locate`), and the
last one ends with the path (`end_getLast?_locate`).
-/

namespace PathRouting.Path

theorem isChain_locate (offset : Nat) (words : List String) :
    (locate offset words).IsChain fun part next =>
      next.offset = part.offset + part.text.utf8ByteSize + 1 := by
  induction words generalizing offset with
  | nil => exact .nil
  | cons word words ih =>
    cases words with
    | nil => exact .singleton _
    | cons next words => exact .cons_cons rfl (ih _)

/-- The last part ends where the text ends that joins the parts. -/
theorem end_getLast?_locate (offset : Nat) {words : List String} (hne : words ≠ []) :
    (locate offset words).getLast?.map (fun part => part.offset + part.text.utf8ByteSize) =
      some (offset + ("/".intercalate words).utf8ByteSize) := by
  induction words generalizing offset with
  | nil => exact absurd rfl hne
  | cons word words ih =>
    cases words with
    | nil => simp [locate]
    | cons next words =>
      have hlast : (locate offset (word :: next :: words)).getLast? =
          (locate (offset + word.utf8ByteSize + 1) (next :: words)).getLast? :=
        List.getLast?_cons_cons
      have hsize : ("/".intercalate (word :: next :: words)).utf8ByteSize =
          word.utf8ByteSize + 1 + ("/".intercalate (next :: words)).utf8ByteSize := by
        have hslash : "/".utf8ByteSize = 1 := rfl
        simp [String.intercalate_cons_cons, hslash]
      rw [hlast, ih _ (List.cons_ne_nil _ _), hsize]
      simp only [Nat.add_assoc]

/-- **The parts of a path cover it side by side.** There is one more of them than there are slashes,
they hold none, and joined with slashes they are the path. Each is the slice of the path at its
offset, in characters and in bytes. The first starts with the path, each other one is one byte
behind the end of the part before it, and the last ends with the path. -/
theorem parts_side_by_side (path : String) :
    (parts path).length = partCount path ∧
    "/".intercalate ((parts path).map Part.text) = path ∧
    (∀ part ∈ parts path, '/' ∉ part.text.toList) ∧
    (∀ part ∈ parts path, part.IsIn path ∧
      (Text.bytes path).extract part.offset (part.offset + part.text.utf8ByteSize) =
        Text.bytes part.text) ∧
    (parts path).head?.map Part.offset = some 0 ∧
    (parts path).IsChain (fun part next =>
      next.offset = part.offset + part.text.utf8ByteSize + 1) ∧
    (parts path).getLast?.map (fun part => part.offset + part.text.utf8ByteSize) =
      some path.utf8ByteSize := by
  have htexts : (parts path).map Part.text = texts path := map_text_parts path
  have hne : texts path ≠ [] := by
    rw [← List.length_pos_iff, length_texts]
    exact Nat.succ_pos _
  refine ⟨length_parts path, ?_, fun part hpart => ?_, fun part hpart => ?_, ?_,
    isChain_locate 0 _, ?_⟩
  · rw [htexts, intercalate_texts]
  · exact slash_notMem_of_mem_texts (htexts ▸ List.mem_map_of_mem hpart)
  · have hin : part.IsIn path := isIn_of_mem_parts hpart
    exact ⟨hin, Text.extract_bytes_of_slice? hin⟩
  · obtain ⟨word, words, hwords⟩ := List.exists_cons_of_ne_nil hne
    show (locate 0 (texts path)).head?.map Part.offset = some 0
    rw [hwords]
    rfl
  · show (locate 0 (texts path)).getLast?.map _ = _
    rw [end_getLast?_locate 0 hne, intercalate_texts, Nat.zero_add]

/-- The path `/` has two empty parts, and a letter may take up two bytes. -/
example : parts "/" = [⟨0, ""⟩, ⟨1, ""⟩] ∧ parts "é//b" = [⟨0, "é"⟩, ⟨3, ""⟩, ⟨4, "b"⟩] := by
  decide +kernel

end PathRouting.Path
