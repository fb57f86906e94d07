/-!
# Texts in bytes

Positions in a text count the bytes of its UTF-8 form. This file holds the bytes of a text,
the size of a list of characters, and the slice between two positions.

A slice exists only between two character boundaries, and `slice?_eq_some_iff` says which
text it is: the middle of a cut into three whose outer parts have the given sizes.
-/

namespace PathRouting.Text

/-- The number of bytes of a list of characters. -/
def byteSize : List Char → Nat
  | [] => 0
  | c :: cs => c.utf8Size + byteSize cs

/-- The bytes of a text, character by character. -/
def bytes (text : String) : Array UInt8 :=
  (text.toList.flatMap String.utf8EncodeChar).toArray

/-- The characters after the first `n` bytes, if a character starts or the text ends there. -/
def dropBytes? : Nat → List Char → Option (List Char)
  | 0, cs => some cs
  | _ + 1, [] => none
  | n + 1, c :: cs =>
    if c.utf8Size ≤ n + 1 then dropBytes? (n + 1 - c.utf8Size) cs else none

/-- The characters of the first `n` bytes, if a character starts or the text ends there. -/
def takeBytes? : Nat → List Char → Option (List Char)
  | 0, _ => some []
  | _ + 1, [] => none
  | n + 1, c :: cs =>
    if c.utf8Size ≤ n + 1 then (takeBytes? (n + 1 - c.utf8Size) cs).map (c :: ·) else none

/-- The part of `text` from byte `start` up to byte `stop`, if both are character boundaries
of the text in this order. -/
def slice? (text : String) (start stop : Nat) : Option String :=
  if start ≤ stop then
    ((dropBytes? start text.toList).bind (takeBytes? (stop - start))).map String.ofList
  else
    none

/-! ## Sizes -/

@[simp] theorem byteSize_append (cs ds : List Char) :
    byteSize (cs ++ ds) = byteSize cs + byteSize ds := by
  induction cs with
  | nil => simp [byteSize]
  | cons c cs ih => simp [byteSize, ih, Nat.add_assoc]

theorem byteSize_pos {cs : List Char} (h : cs ≠ []) : 0 < byteSize cs := by
  cases cs with
  | nil => exact absurd rfl h
  | cons c cs =>
    have := c.utf8Size_pos
    simp only [byteSize]
    omega

theorem length_flatMap_utf8EncodeChar (cs : List Char) :
    (cs.flatMap String.utf8EncodeChar).length = byteSize cs := by
  induction cs with
  | nil => rfl
  | cons c cs ih => simp only [List.flatMap_cons, List.length_append,
      String.length_utf8EncodeChar, ih, byteSize]

theorem size_bytes (text : String) : (bytes text).size = byteSize text.toList := by
  rw [bytes, List.size_toArray, length_flatMap_utf8EncodeChar]

theorem byteSize_toList (text : String) : byteSize text.toList = text.utf8ByteSize := by
  conv => rhs; rw [← String.ofList_toList (s := text)]
  rw [← String.size_toByteArray, String.toByteArray_ofList, List.utf8Encode,
    List.size_toByteArray, length_flatMap_utf8EncodeChar]

theorem size_bytes_eq_utf8ByteSize (text : String) : (bytes text).size = text.utf8ByteSize := by
  rw [size_bytes, byteSize_toList]

/-! ## Slices -/

theorem dropBytes?_append (front rest : List Char) :
    dropBytes? (byteSize front) (front ++ rest) = some rest := by
  induction front with
  | nil => simp [byteSize, dropBytes?]
  | cons c front ih =>
    have hpos : 0 < byteSize (c :: front) := byteSize_pos (List.cons_ne_nil c front)
    obtain ⟨n, hn⟩ := Nat.exists_eq_succ_of_ne_zero (Nat.ne_of_gt hpos)
    rw [hn]
    simp only [byteSize] at hn
    have hle : c.utf8Size ≤ n + 1 := by omega
    have hsub : n + 1 - c.utf8Size = byteSize front := by omega
    simp only [List.cons_append, dropBytes?, if_pos hle, hsub, ih]

theorem takeBytes?_append (front rest : List Char) :
    takeBytes? (byteSize front) (front ++ rest) = some front := by
  induction front with
  | nil => simp [byteSize, takeBytes?]
  | cons c front ih =>
    have hpos : 0 < byteSize (c :: front) := byteSize_pos (List.cons_ne_nil c front)
    obtain ⟨n, hn⟩ := Nat.exists_eq_succ_of_ne_zero (Nat.ne_of_gt hpos)
    rw [hn]
    simp only [byteSize] at hn
    have hle : c.utf8Size ≤ n + 1 := by omega
    have hsub : n + 1 - c.utf8Size = byteSize front := by omega
    simp only [List.cons_append, takeBytes?, if_pos hle, hsub, ih, Option.map_some]

theorem dropBytes?_eq_some_iff {n : Nat} {cs rest : List Char} :
    dropBytes? n cs = some rest ↔ ∃ front, cs = front ++ rest ∧ byteSize front = n := by
  constructor
  · intro h
    fun_induction dropBytes? n cs with
    | case1 cs =>
      cases h
      exact ⟨[], rfl, rfl⟩
    | case2 n => simp at h
    | case3 n c cs hle ih =>
      obtain ⟨front, rfl, hs⟩ := ih h
      refine ⟨c :: front, rfl, ?_⟩
      simp only [byteSize, hs]
      omega
    | case4 n c cs hle => simp at h
  · rintro ⟨front, rfl, rfl⟩
    exact dropBytes?_append front rest

theorem takeBytes?_eq_some_iff {n : Nat} {cs front : List Char} :
    takeBytes? n cs = some front ↔ ∃ rest, cs = front ++ rest ∧ byteSize front = n := by
  constructor
  · intro h
    fun_induction takeBytes? n cs generalizing front with
    | case1 cs =>
      cases h
      exact ⟨cs, rfl, rfl⟩
    | case2 n => simp at h
    | case3 n c cs hle ih =>
      obtain ⟨front, hf, rfl⟩ := Option.map_eq_some_iff.mp h
      obtain ⟨rest, rfl, hs⟩ := ih hf
      refine ⟨rest, rfl, ?_⟩
      simp only [byteSize, hs]
      omega
    | case4 n c cs hle => simp at h
  · rintro ⟨rest, rfl, rfl⟩
    exact takeBytes?_append front rest

/-- The slice between two positions is the middle of the cut of the text at these positions. -/
theorem slice?_eq_some_iff {text part : String} {start stop : Nat} :
    slice? text start stop = some part ↔
      ∃ before after, text.toList = before ++ (part.toList ++ after) ∧
        byteSize before = start ∧ start + byteSize part.toList = stop := by
  unfold slice?
  split
  case isTrue hle =>
    simp only [Option.map_eq_some_iff, Option.bind_eq_some_iff, dropBytes?_eq_some_iff,
      takeBytes?_eq_some_iff]
    constructor
    · rintro ⟨middle, ⟨_, ⟨before, ht, hb⟩, after, rfl, hm⟩, rfl⟩
      refine ⟨before, after, by simpa using ht, hb, ?_⟩
      simp only [String.toList_ofList, hm]
      omega
    · rintro ⟨before, after, ht, hb, hm⟩
      refine ⟨part.toList, ⟨_, ⟨before, ht, hb⟩, after, rfl, ?_⟩, by simp⟩
      omega
  case isFalse hle =>
    simp only [reduceCtorEq, false_iff, not_exists, not_and]
    intro before after _ _ hm
    omega

/-- The bytes of a slice are those between its two positions. -/
theorem extract_bytes_of_slice? {text part : String} {start stop : Nat}
    (h : slice? text start stop = some part) : (bytes text).extract start stop = bytes part := by
  obtain ⟨before, after, htext, rfl, rfl⟩ := slice?_eq_some_iff.mp h
  rw [bytes, bytes, htext, List.flatMap_append, List.flatMap_append, List.extract_toArray,
    List.extract_eq_take_drop, ← length_flatMap_utf8EncodeChar before, List.drop_left,
    Nat.add_sub_cancel_left, ← length_flatMap_utf8EncodeChar part.toList, List.take_left]

end PathRouting.Text
