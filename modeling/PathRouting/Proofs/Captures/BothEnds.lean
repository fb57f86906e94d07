import PathRouting.Proofs.Captures.Slices

/-!
# Walking from both ends

The calls on a cursor may change between its ends as they like. What they give at the front are the
first pairs, what they give at the back are the last ones from behind, and the cursor is left with
the pairs between them (`PairCursor.toList_eq_given_append`). A call gives nothing exactly when
nothing is left, and then no later call gives anything (`PairCursor.fst_step_eq_none_iff`,
`PairCursor.calls_of_toList_eq_nil`).

A cursor of values gives the values of the pairs that a cursor of pairs gives for the same calls
(`ValueCursor.calls_eq`). Of two cursors that are called in turn, each gives what it would give by
itself (`Cursors.answers_left`, `Cursors.answers_right`).
-/

namespace PathRouting

/-- The items that calls at one end gave, in the order of the calls. -/
def CursorEnd.given {α : Type u} (side : CursorEnd) (calls : List (CursorEnd × Option α)) :
    List α :=
  calls.filterMap fun call => if call.1 = side then call.2 else none

namespace PairCursor

/-! ## Calls on a cursor of pairs -/

/-- Calls at the ends of a cursor, each with what it gives. -/
def calls (cursor : PairCursor) : List CursorEnd → List (CursorEnd × Option (String × String))
  | [] => []
  | side :: ends => (side, (cursor.step side).1) :: (cursor.step side).2.calls ends

variable (cursor : PairCursor)

theorem calls_append (ends further : List CursorEnd) :
    cursor.calls (ends ++ further) = cursor.calls ends ++ (cursor.after ends).calls further := by
  induction ends generalizing cursor with
  | nil => rfl
  | cons side ends ih =>
    rw [List.cons_append, calls, ih, calls]
    rfl

/-- A call at the front takes the first pair off. -/
theorem toList_step_front :
    cursor.toList = (cursor.step .front).1.toList ++ (cursor.step .front).2.toList := by
  show cursor.toList = cursor.next.1.toList ++ cursor.next.2.toList
  rw [fst_next, toList_snd_next]
  cases cursor.toList <;> rfl

/-- A call at the back takes the last pair off. -/
theorem toList_step_back :
    cursor.toList = (cursor.step .back).2.toList ++ (cursor.step .back).1.toList := by
  show cursor.toList = cursor.nextBack.2.toList ++ cursor.nextBack.1.toList
  rw [fst_nextBack, toList_snd_nextBack]
  cases hlast : cursor.toList.getLast? with
  | none => rw [List.getLast?_eq_none_iff.mp hlast]; rfl
  | some pair => exact (List.dropLast_append_getLast? pair hlast).symm

/-- **The pairs given at the front, those that are left, and those given at the back from behind are
all pairs, in order.** -/
theorem toList_eq_given_append (ends : List CursorEnd) :
    cursor.toList = CursorEnd.front.given (cursor.calls ends) ++ (cursor.after ends).toList ++
      (CursorEnd.back.given (cursor.calls ends)).reverse := by
  induction ends generalizing cursor with
  | nil => simp [calls, CursorEnd.given, after]
  | cons side ends ih =>
    -- the first call takes a pair off one end, and the others share the rest
    have ih := ih (cursor.step side).2
    have hafter : cursor.after (side :: ends) = (cursor.step side).2.after ends := rfl
    rw [hafter]
    cases side with
    | front =>
      rw [toList_step_front, ih]
      cases hfirst : (cursor.step .front).1 <;> simp [calls, CursorEnd.given, hfirst]
    | back =>
      rw [toList_step_back, ih]
      cases hlast : (cursor.step .back).1 <;> simp [calls, CursorEnd.given, hlast]

/-- A call gives a pair as long as there is one. -/
theorem fst_step_eq_none_iff (side : CursorEnd) :
    (cursor.step side).1 = none ↔ cursor.toList = [] := by
  cases side with
  | front =>
    show cursor.next.1 = none ↔ _
    rw [fst_next, List.head?_eq_none_iff]
  | back =>
    show cursor.nextBack.1 = none ↔ _
    rw [fst_nextBack, List.getLast?_eq_none_iff]

variable {cursor}

theorem toList_step_of_toList_eq_nil (h : cursor.toList = []) (side : CursorEnd) :
    (cursor.step side).2.toList = [] := by
  cases side with
  | front => exact (List.append_eq_nil_iff.mp (cursor.toList_step_front.symm.trans h)).2
  | back => exact (List.append_eq_nil_iff.mp (cursor.toList_step_back.symm.trans h)).1

/-- Once no pair is left, no call gives one. -/
theorem calls_of_toList_eq_nil (h : cursor.toList = []) (ends : List CursorEnd) :
    cursor.calls ends = ends.map (·, none) := by
  induction ends generalizing cursor with
  | nil => rfl
  | cons side ends ih =>
    rw [calls, (cursor.fst_step_eq_none_iff side).mpr h, ih (toList_step_of_toList_eq_nil h side),
      List.map_cons]

end PairCursor

namespace ValueCursor

/-! ## Calls on a cursor of values -/

/-- Calls at the ends of a cursor, each with what it gives. -/
def calls (cursor : ValueCursor) : List CursorEnd → List (CursorEnd × Option String)
  | [] => []
  | side :: ends => (side, (cursor.step side).1) :: (cursor.step side).2.calls ends

/-- **The values that calls give are those of the pairs that the same calls give.** -/
theorem calls_eq (cursor : ValueCursor) (ends : List CursorEnd) :
    cursor.calls ends =
      (cursor.pairs.calls ends).map fun call => (call.1, call.2.map Prod.snd) := by
  induction ends generalizing cursor with
  | nil => rfl
  | cons side ends ih =>
    rw [calls, ih, PairCursor.calls, List.map_cons]
    cases side <;> rfl

end ValueCursor

/-! ## Two cursors in turn -/

/-- A cursor of pairs and a cursor of values, side by side. -/
structure Cursors where
  pairs : PairCursor
  values : ValueCursor

namespace Cursors

/-- The cursors after calls in turn. Those on the left go to the cursor of pairs, and those on the
right to the cursor of values. -/
def after (cursors : Cursors) (calls : List (CursorEnd ⊕ CursorEnd)) : Cursors :=
  calls.foldl
    (fun cursors call =>
      match call with
      | .inl side => { cursors with pairs := (cursors.pairs.step side).2 }
      | .inr side => { cursors with values := (cursors.values.step side).2 })
    cursors

/-- Calls on the cursors in turn, each with what it gives. -/
def answers (cursors : Cursors) : List (CursorEnd ⊕ CursorEnd) →
    List ((CursorEnd × Option (String × String)) ⊕ (CursorEnd × Option String))
  | [] => []
  | .inl side :: calls =>
    .inl (side, (cursors.pairs.step side).1) ::
      answers { cursors with pairs := (cursors.pairs.step side).2 } calls
  | .inr side :: calls =>
    .inr (side, (cursors.values.step side).1) ::
      answers { cursors with values := (cursors.values.step side).2 } calls

variable (cursors : Cursors) (calls : List (CursorEnd ⊕ CursorEnd))

/-- Each cursor is moved by its own calls only. -/
theorem after_eq :
    cursors.after calls =
      ⟨cursors.pairs.after (calls.filterMap Sum.getLeft?),
        cursors.values.after (calls.filterMap Sum.getRight?)⟩ := by
  induction calls generalizing cursors with
  | nil => rfl
  | cons call calls ih =>
    rw [after, List.foldl_cons]
    cases call with
    | inl side => exact ih { cursors with pairs := (cursors.pairs.step side).2 }
    | inr side => exact ih { cursors with values := (cursors.values.step side).2 }

theorem answers_left :
    (cursors.answers calls).filterMap Sum.getLeft? =
      cursors.pairs.calls (calls.filterMap Sum.getLeft?) := by
  induction calls generalizing cursors with
  | nil => rfl
  | cons call calls ih =>
    cases call with
    | inl side => simp [answers, PairCursor.calls, ih]
    | inr side => rw [answers, List.filterMap_cons_none rfl, List.filterMap_cons_none rfl, ih]

theorem answers_right :
    (cursors.answers calls).filterMap Sum.getRight? =
      cursors.values.calls (calls.filterMap Sum.getRight?) := by
  induction calls generalizing cursors with
  | nil => rfl
  | cons call calls ih =>
    cases call with
    | inl side => rw [answers, List.filterMap_cons_none rfl, List.filterMap_cons_none rfl, ih]
    | inr side => simp [answers, ValueCursor.calls, ih]

end Cursors

namespace Captures

/-- The name and the slice of a span, if it is one of the path that is kept. -/
def slice? (captures : Captures) (span : Span) : Option (String × String) :=
  captures.path?.bind fun path => (Text.slice? path span.start span.stop).map (span.name, ·)

/-- The cursors at both ends of the pairs and of the values. -/
def cursors (captures : Captures) : Cursors :=
  ⟨captures.pairCursor, captures.valueCursor⟩

/-- The pairs are the slices of the spans, which all exist. -/
theorem map_some_toList_ofSpans {path : String} {spans : List Span} (h : LaidOut path spans) :
    (ofSpans path spans).toList.map some = spans.map (ofSpans path spans).slice? := by
  rw [toList_ofSpans, List.map_map]
  refine List.map_congr_left fun span hspan => ?_
  have hpath : (ofSpans path spans).path? = some path :=
    path?_ofSpans_eq_some_iff.mpr ⟨List.ne_nil_of_mem hspan, rfl⟩
  obtain ⟨part, hpart⟩ := Option.isSome_iff_exists.mp (h.isSome_slice? span hspan)
  simp [slice?, hpath, hpart, Span.pair, Span.value]

end Captures

namespace Pattern

/-- **Calls at both ends of a cursor give each pair of a match once**, in whatever order they come:
at the front the first pairs in order, at the back the last ones from behind, and nothing once none
is left between them. The numbers that the cursor reports are that of the pairs that are left. A
cursor of values gives the values of these pairs, and calls on one of the two cursors change nothing
for the other. -/
theorem calls_at_both_ends_of_find? {text path : String} {captures : Captures}
    (hfind : (compile text).find? path = some captures) :
    captures.toList.map some = captures.spans.map captures.slice? ∧
    (∀ ends : List CursorEnd,
      let cursor := captures.pairCursor.after ends
      let values := captures.valueCursor.after ends
      let calls := captures.pairCursor.calls ends
      captures.valueCursor.calls ends =
        calls.map (fun call => (call.1, call.2.map Prod.snd)) ∧
      ∃ rest, captures.toList =
          CursorEnd.front.given calls ++ rest ++ (CursorEnd.back.given calls).reverse ∧
        (cursor.length = rest.length ∧ cursor.bounds = (rest.length, some rest.length)) ∧
        (values.length = rest.length ∧ values.bounds = (rest.length, some rest.length)) ∧
        (∀ side, (cursor.step side).1 = none ↔ rest = []) ∧
        (rest = [] → ∀ further,
          captures.pairCursor.calls (ends ++ further) = calls ++ further.map (·, none))) ∧
    ∀ calls : List (CursorEnd ⊕ CursorEnd),
      let left := calls.filterMap Sum.getLeft?
      let right := calls.filterMap Sum.getRight?
      (captures.cursors.answers calls).filterMap Sum.getLeft? = captures.pairCursor.calls left ∧
      (captures.cursors.answers calls).filterMap Sum.getRight? = captures.valueCursor.calls right ∧
      captures.cursors.after calls =
        ⟨captures.pairCursor.after left, captures.valueCursor.after right⟩ := by
  obtain ⟨spans, rfl, hlaid⟩ := exists_laidOut_of_find? hfind
  generalize hcaptures : Captures.ofSpans (Path.normalize path) spans = captures
  refine ⟨?_, fun ends => ⟨?_, ?_⟩, fun calls => ⟨?_, ?_, ?_⟩⟩
  · rw [← hcaptures]
    exact Captures.map_some_toList_ofSpans hlaid
  · exact captures.valueCursor.calls_eq ends
  · have hvalues : (captures.valueCursor.after ends).pairs = captures.pairCursor.after ends :=
      captures.valueCursor.pairs_after ends
    have hlength : (captures.pairCursor.after ends).length =
        (captures.pairCursor.after ends).toList.length := PairCursor.length_eq_length_toList _
    refine ⟨_, captures.pairCursor.toList_eq_given_append ends, ⟨hlength, ?_⟩, ?_,
      fun side => PairCursor.fst_step_eq_none_iff _ side, fun hrest further => ?_⟩
    · rw [← hlength]
      rfl
    · rw [ValueCursor.length, ValueCursor.bounds, hvalues, ← hlength]
      exact ⟨rfl, rfl⟩
    · rw [PairCursor.calls_append, PairCursor.calls_of_toList_eq_nil hrest]
  · exact captures.cursors.answers_left calls
  · exact captures.cursors.answers_right calls
  · exact captures.cursors.after_eq calls

/-- The calls meet at the pair in the middle, and whatever calls follow give nothing. -/
theorem calls_at_both_ends_of_three_values :
    ∃ captures, (compile "/{a}/{b?}/{c}").find? "é/y/z" = some captures ∧
      ∀ further, captures.pairCursor.calls ([.front, .back, .front] ++ further) =
        [(.front, some ("a", "é")), (.back, some ("c", "z")), (.front, some ("b", "y"))] ++
          further.map (·, none) := by
  have hfind : (compile "/{a}/{b?}/{c}").find? "é/y/z" =
      some ⟨some "é/y/z", [⟨"a", 0, 2⟩, ⟨"b", 3, 4⟩, ⟨"c", 5, 6⟩]⟩ := by decide +kernel
  obtain ⟨-, hends, -⟩ := calls_at_both_ends_of_find? hfind
  obtain ⟨-, rest, hpairs, -, -, -, hfurther⟩ := hends [.front, .back, .front]
  have hrest : rest = [] := by
    have hsplit : [("a", "é"), ("b", "y"), ("c", "z")] =
        [("a", "é"), ("b", "y")] ++ rest ++ [("c", "z")] := hpairs
    simpa using hsplit
  exact ⟨_, hfind, hfurther hrest⟩

end Pattern

end PathRouting
