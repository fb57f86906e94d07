import PathRouting.Proofs.Pattern.Positions
import PathRouting.Proofs.Text.Boundaries

/-!
# Captured values as slices

A match keeps the path only if it captures values, and then their spans are slices of it which
stand one behind another (`LaidOut`, `exists_laidOut_of_find?`). So whatever is asked for, a value
is cut out of the path at character boundaries: the first value of a name, all of them, or what a
cursor gives after any calls at its two ends (`laidOut_after`).
-/

namespace PathRouting

/-! ## Spans one behind another -/

/-- Of two spans in a path of `size` bytes one stands before the other: it ends before the other
starts, except that both may stand at the end of the path. -/
def Span.IsBefore (size : Nat) (span later : Span) : Prop :=
  span.stop ≤ later.start ∧ (span.stop = later.start → later.start = size)

/-- Spans are laid out in a path if each is a slice of it and they stand one behind another. -/
structure LaidOut (path : String) (spans : List Span) : Prop where
  isSome_slice? : ∀ span ∈ spans, (Text.slice? path span.start span.stop).isSome
  ordered : spans.Pairwise (Span.IsBefore path.utf8ByteSize)

theorem LaidOut.sublist {path : String} {spans spans' : List Span} (h : LaidOut path spans)
    (hsub : spans'.Sublist spans) : LaidOut path spans' where
  isSome_slice? span hspan := h.isSome_slice? span (hsub.subset hspan)
  ordered := h.ordered.sublist hsub

namespace Path

theorem Part.IsIn.stop_le {part : Part} {path : String} (h : part.IsIn path) :
    part.offset + part.text.utf8ByteSize ≤ path.utf8ByteSize := by
  have hslice : (Text.slice? path part.offset (part.offset + part.text.utf8ByteSize)).isSome := by
    rw [h]
    rfl
  exact (Text.isSome_slice?_iff.mp hslice).2.2.le_rawEndPos

end Path

namespace Pattern

theorem map_snd_placedParts {stop : Nat} {segments : List Segment} {parts : List Path.Part}
    (h : parts.length ≤ segments.length) :
    (placedParts stop segments parts).map Prod.snd =
      parts.rightpad segments.length ⟨stop, ""⟩ := by
  refine List.map_snd_zip ?_
  rw [List.length_rightpad]
  exact Nat.max_le.mpr ⟨Nat.le_refl _, h⟩

/-- The parts at the places of segments stand one behind another. The empty ones for places without
a part stand at the end of the path. -/
theorem pairwise_placedParts {segments : List Segment} {path : String}
    (hlen : (Path.texts path).length ≤ segments.length) :
    (placedParts path.utf8ByteSize segments (Path.parts path)).Pairwise fun x y =>
      ∀ name name', (Span.ofPart name x.2).IsBefore path.utf8ByteSize (.ofPart name' y.2) := by
  have hparts : (Path.parts path).length ≤ segments.length := by
    rwa [Path.length_parts, ← Path.length_texts]
  have hordered : ((Path.parts path).rightpad segments.length ⟨path.utf8ByteSize, ""⟩).Pairwise
      fun part later : Path.Part =>
        ∀ name name', (Span.ofPart name part).IsBefore path.utf8ByteSize (.ofPart name' later) := by
    rw [List.rightpad, List.pairwise_append]
    refine ⟨?_, ?_, ?_⟩
    · refine (Path.pairwise_locate 0 _).imp fun hlt _ _ => ?_
      exact ⟨Nat.le_of_lt hlt, fun heq => absurd heq (Nat.ne_of_lt hlt)⟩
    · exact List.pairwise_replicate.mpr (.inr fun _ _ => ⟨Nat.le_refl _, fun _ => rfl⟩)
    · intro part hpart later hlater _ _
      rw [List.eq_of_mem_replicate hlater]
      exact ⟨(Path.isIn_of_mem_parts hpart).stop_le, fun _ => rfl⟩
  rw [← map_snd_placedParts hparts, List.pairwise_map] at hordered
  exact hordered

theorem laidOut_capturesAlong {segments : List Segment} {path : String}
    (hlen : (Path.texts path).length ≤ segments.length) :
    LaidOut path (capturesAlong segments path).spans where
  isSome_slice? span hspan := (slicesOf_capturesAlong segments path span hspan).2
  ordered := by
    rw [capturesAlong, Captures.ofSpans]
    refine (pairwise_placedParts hlen).filterMap _ fun x y hxy span hspan later hlater => ?_
    obtain ⟨pair, -, rfl⟩ := Option.map_eq_some_iff.mp hspan
    obtain ⟨pair', -, rfl⟩ := Option.map_eq_some_iff.mp hlater
    exact hxy _ _

/-- A match has the captures of some spans that are laid out in the normal form of the path. -/
theorem exists_laidOut_of_find? {text path : String} {captures : Captures}
    (hfind : (compile text).find? path = some captures) :
    ∃ spans, captures = .ofSpans (Path.normalize path) spans ∧
      LaidOut (Path.normalize path) spans := by
  by_cases hnormal : Path.normalize path = (compile text).normalized
  · rw [find?_of_normalize_eq hnormal, Option.some.injEq] at hfind
    exact ⟨[], hfind.symm, ⟨by simp, .nil⟩⟩
  · obtain ⟨hlen, -, rfl⟩ :=
      (find?_eq_some_iff (empty_literal_notMem_compile text) hnormal).mp hfind
    exact ⟨_, rfl, laidOut_capturesAlong hlen⟩

end Pattern

/-! ## Calls on a cursor -/

/-- An end of a cursor. -/
inductive CursorEnd where
  | front
  | back
  deriving DecidableEq, Repr

namespace PairCursor

/-- The pair at one end, and the cursor without it. -/
def step (cursor : PairCursor) : CursorEnd → Option (String × String) × PairCursor
  | .front => cursor.next
  | .back => cursor.nextBack

/-- The cursor after calls at its ends. -/
def after (cursor : PairCursor) (ends : List CursorEnd) : PairCursor :=
  ends.foldl (fun cursor side => (cursor.step side).2) cursor

theorem path_step (cursor : PairCursor) (side : CursorEnd) :
    (cursor.step side).2.path = cursor.path := by
  cases side with
  | front => rw [step, next]; split <;> rfl
  | back => rw [step, nextBack]; split <;> rfl

/-- A call takes at most one span off. -/
theorem spans_step_sublist (cursor : PairCursor) (side : CursorEnd) :
    (cursor.step side).2.spans.Sublist cursor.spans := by
  cases side with
  | front =>
    rw [step, next]
    split
    case h_1 => exact .refl _
    case h_2 span spans heq => rw [heq]; exact List.sublist_cons_self _ _
  | back =>
    rw [step, nextBack]
    split
    case h_1 => exact .refl _
    case h_2 => exact List.dropLast_sublist _

theorem laidOut_after {cursor : PairCursor} (h : LaidOut cursor.path cursor.spans)
    (ends : List CursorEnd) : LaidOut (cursor.after ends).path (cursor.after ends).spans := by
  induction ends generalizing cursor with
  | nil => exact h
  | cons side ends ih =>
    have hstep : LaidOut (cursor.step side).2.path (cursor.step side).2.spans := by
      rw [path_step]
      exact h.sublist (spans_step_sublist cursor side)
    exact ih hstep

theorem toList_after_front (cursor : PairCursor) (n : Nat) :
    (cursor.after (List.replicate n .front)).toList = cursor.toList.drop n := by
  induction n generalizing cursor with
  | zero => rfl
  | succ n ih =>
    rw [List.replicate_succ]
    show (cursor.next.2.after (List.replicate n .front)).toList = _
    rw [ih, toList_snd_next, List.drop_tail]

/-- The pairs come from the front in order. -/
theorem fst_next_after_front (cursor : PairCursor) (n : Nat) :
    (cursor.after (List.replicate n .front)).next.1 = cursor.toList[n]? := by
  rw [fst_next, toList_after_front, List.head?_drop]

end PairCursor

namespace ValueCursor

/-- The value at one end, and the cursor without it. -/
def step (cursor : ValueCursor) : CursorEnd → Option String × ValueCursor
  | .front => cursor.next
  | .back => cursor.nextBack

/-- The cursor after calls at its ends. -/
def after (cursor : ValueCursor) (ends : List CursorEnd) : ValueCursor :=
  ends.foldl (fun cursor side => (cursor.step side).2) cursor

/-- A cursor of values moves the cursor of pairs it is made of. -/
theorem pairs_after (cursor : ValueCursor) (ends : List CursorEnd) :
    (cursor.after ends).pairs = cursor.pairs.after ends := by
  induction ends generalizing cursor with
  | nil => rfl
  | cons side ends ih =>
    have hstep : (cursor.step side).2.pairs = (cursor.pairs.step side).2 := by
      cases side <;> rfl
    show ((cursor.step side).2.after ends).pairs = (cursor.pairs.step side).2.after ends
    rw [ih, hstep]

theorem fst_next_after_front (cursor : ValueCursor) (n : Nat) :
    (cursor.after (List.replicate n .front)).next.1 = cursor.toList[n]? := by
  rw [next, pairs_after, PairCursor.fst_next_after_front, toList, List.getElem?_map]

end ValueCursor

namespace Captures

/-! ## Captures of laid out spans -/

variable {path : String} {spans : List Span}

theorem path?_ofSpans_eq_some_iff {stored : String} :
    (ofSpans path spans).path? = some stored ↔ spans ≠ [] ∧ stored = path := by
  cases spans with
  | nil => simp [ofSpans]
  | cons span spans => simp [ofSpans, eq_comm]

theorem laidOut_pairCursor_ofSpans (h : LaidOut path spans) :
    LaidOut (ofSpans path spans).pairCursor.path (ofSpans path spans).pairCursor.spans := by
  cases spans with
  | nil => exact ⟨by simp [pairCursor, ofSpans], .nil⟩
  | cons span spans => exact h

end Captures

namespace Pattern

/-- **The values of a match are slices of the path it keeps.** The path is kept exactly if there are
values, their spans stand at character boundaries and one behind another, and neither a lookup nor
any calls on a cursor cut out anything else. The first value of a name is that of the first pair
with the name, and the pairs and values are those that calls at the front of a cursor give. -/
theorem captures_of_find? {text path : String} {captures : Captures}
    (hfind : (compile text).find? path = some captures) :
    (captures.path?.isSome ↔ captures.spans ≠ []) ∧
    (∀ stored, captures.path? = some stored →
      (∀ span ∈ captures.spans,
        span.start ≤ span.stop ∧ span.stop ≤ stored.utf8ByteSize ∧
        (⟨span.start⟩ : String.Pos.Raw).IsValid stored ∧
        (⟨span.stop⟩ : String.Pos.Raw).IsValid stored ∧
        (Text.slice? stored span.start span.stop).isSome) ∧
      captures.spans.Pairwise (Span.IsBefore stored.utf8ByteSize)) ∧
    (∀ ends, ∀ span ∈ (captures.pairCursor.after ends).spans,
      (Text.slice? (captures.pairCursor.after ends).path span.start span.stop).isSome) ∧
    (∀ ends, ∀ span ∈ (captures.valueCursor.after ends).pairs.spans,
      (Text.slice? (captures.valueCursor.after ends).pairs.path span.start span.stop).isSome) ∧
    (∀ name, captures.get? name = (captures.toList.find? (·.1 = name)).map Prod.snd) ∧
    captures.size = captures.toList.length ∧
    (captures.isEmpty = true ↔ captures.toList = []) ∧
    captures.values = captures.toList.map Prod.snd ∧
    ∀ n, (captures.pairCursor.after (List.replicate n .front)).next.1 = captures.toList[n]? ∧
      (captures.valueCursor.after (List.replicate n .front)).next.1 = captures.values[n]? := by
  obtain ⟨spans, rfl, hlaid⟩ := exists_laidOut_of_find? hfind
  have hspans : (Captures.ofSpans (Path.normalize path) spans).spans = spans := rfl
  have hcursor := Captures.laidOut_pairCursor_ofSpans hlaid
  refine ⟨?_, fun stored hstored => ?_, fun ends => ?_, fun ends => ?_, ?_, ?_, ?_, rfl, ?_⟩
  · simp [Option.isSome_iff_exists, Captures.path?_ofSpans_eq_some_iff, hspans]
  · obtain ⟨-, rfl⟩ := Captures.path?_ofSpans_eq_some_iff.mp hstored
    refine ⟨fun span hspan => ?_, hlaid.ordered⟩
    have hslice := hlaid.isSome_slice? span hspan
    obtain ⟨hle, hstart, hstop⟩ := Text.isSome_slice?_iff.mp hslice
    exact ⟨hle, hstop.le_rawEndPos, hstart, hstop, hslice⟩
  · exact (PairCursor.laidOut_after hcursor ends).isSome_slice?
  · rw [ValueCursor.pairs_after]
    exact (PairCursor.laidOut_after hcursor ends).isSome_slice?
  · exact Captures.get?_ofSpans _ _
  · rw [Captures.toList_ofSpans, List.length_map]
    rfl
  · rw [Captures.toList_ofSpans, List.map_eq_nil_iff]
    exact List.isEmpty_iff
  · exact fun n => ⟨PairCursor.fst_next_after_front _ n, ValueCursor.fst_next_after_front _ n⟩

/-- A letter of two bytes is captured, and two parts that are missing are empty values at the end of
the path. -/
theorem captures_of_find?_of_missing_parts :
    ∃ captures, (compile "/{a}/x/{b}/{c}").find? "/é/x/" = some captures ∧
      captures.path? = some "é/x" ∧
      captures.spans = [⟨"a", 0, 2⟩, ⟨"b", 4, 4⟩, ⟨"c", 4, 4⟩] ∧
      captures.spans.Pairwise (Span.IsBefore "é/x".utf8ByteSize) ∧
      captures.get? "c" = (captures.toList.find? (·.1 = "c")).map Prod.snd := by
  have hfind : (compile "/{a}/x/{b}/{c}").find? "/é/x/" =
      some ⟨some "é/x", [⟨"a", 0, 2⟩, ⟨"b", 4, 4⟩, ⟨"c", 4, 4⟩]⟩ := by decide +kernel
  obtain ⟨-, hspans, -, -, hget, -⟩ := captures_of_find? hfind
  exact ⟨_, hfind, rfl, rfl, (hspans _ rfl).2, hget "c"⟩

end Pattern

end PathRouting
