import PathRouting.Captures.Cursor
import PathRouting.Pattern.Match
import PathRouting.Proofs.Path.Parts
import PathRouting.Proofs.Pattern.Reading

/-!
# Matching position by position

A pattern matches a path if each segment admits the text at its place, where places behind the
end of the path hold empty texts, and no text is left over. What it captures are the texts at the
places of named placeholders that accept them (`isSome_find?_iff`, `toList_of_find?`). The walk
along the path keeps spans instead of texts; every span is a slice of the path
(`slicesOf_of_find?`).

A path with the normal form of the pattern's own text is not looked at in this way: it matches
without captures (`find?_of_normalize_eq`).
-/

namespace PathRouting

namespace Segment

/-- A text may stand at the place of a segment. A literal admits itself only; a placeholder admits
every text if it is unnamed or optional, and the values of its type otherwise. -/
def Admits : Segment → String → Prop
  | .literal text, part => text = part
  | .placeholder p, part =>
    p.name = "" ∨ p.isOptional = true ∨ p.valueType.accepts part = true

instance : (segment : Segment) → (part : String) → Decidable (segment.Admits part)
  | .literal text, part => inferInstanceAs (Decidable (text = part))
  | .placeholder p, part => inferInstanceAs
      (Decidable (p.name = "" ∨ p.isOptional = true ∨ p.valueType.accepts part = true))

/-- The name and the value that a segment captures where a text stands. Only a named placeholder
captures, and only a value of its type; an optional one leaves an empty text out. -/
def capture? : Segment → String → Option (String × String)
  | .literal _, _ => none
  | .placeholder p, part =>
    if p.name ≠ "" ∧ p.valueType.accepts part = true ∧ ¬ (p.isOptional = true ∧ part = "") then
      some (p.name, part)
    else
      none

theorem capture?_eq_some_iff {segment : Segment} {part : String} {pair : String × String} :
    segment.capture? part = some pair ↔
      ∃ p, segment = .placeholder p ∧ p.name ≠ "" ∧ p.valueType.accepts part = true ∧
        ¬ (p.isOptional = true ∧ part = "") ∧ pair = (p.name, part) := by
  constructor
  · intro h
    cases segment with
    | literal text => cases h
    | placeholder p =>
      rw [capture?] at h
      split at h
      case isTrue hp => exact ⟨p, rfl, hp.1, hp.2.1, hp.2.2, (Option.some.inj h).symm⟩
      case isFalse => cases h
  · rintro ⟨p, rfl, hname, haccepts, hskip, rfl⟩
    exact if_pos ⟨hname, haccepts, hskip⟩

/-- The span that a segment captures where a part stands. -/
def span? (segment : Segment) (part : Path.Part) : Option Span :=
  (segment.capture? part.text).map fun pair => .ofPart pair.1 part

/-- A part that is not refused is captured or passed. -/
theorem judge_of_ne_refused {segment : Segment} {part : String}
    (h : segment.judge part ≠ .refused) :
    segment.judge part =
      match segment.capture? part with
      | some (name, _) => .captured name
      | none => .passed := by
  cases segment with
  | literal text =>
    rw [judge] at h ⊢
    split at h
    case isTrue => exact absurd rfl h
    case isFalse hpart => rw [if_neg hpart, capture?]
  | placeholder p =>
    by_cases hname : p.name = ""
    · simp [judge, capture?, hname]
    · by_cases haccepts : p.valueType.accepts part = true
      · by_cases hskip : p.isOptional = true ∧ part = "" <;>
          simp [judge, capture?, hname, haccepts, hskip]
      · by_cases hopt : p.isOptional = true
        · simp [judge, capture?, hname, haccepts, hopt]
        · simp [judge, hname, haccepts, hopt] at h

/-- A part is refused exactly if the segment does not admit its text. -/
theorem judge_ne_refused_iff {segment : Segment} (h : segment ≠ .literal "") {part : String} :
    segment.judge part ≠ .refused ↔ segment.Admits part := by
  cases segment with
  | literal text =>
    have htext : text ≠ "" := fun e => h (by rw [e])
    by_cases hpart : text = part <;> simp [judge, Admits, htext, hpart]
  | placeholder p =>
    by_cases hname : p.name = ""
    · simp [judge, Admits, hname]
    · by_cases haccepts : p.valueType.accepts part = true
      · by_cases hskip : p.isOptional = true ∧ part = "" <;>
          simp [judge, Admits, hname, haccepts, hskip]
      · by_cases hopt : p.isOptional = true <;> simp [judge, Admits, hname, haccepts, hopt]

end Segment

namespace Pattern

/-- Segments with the texts at their places. Places without a text hold an empty one. -/
def placed (segments : List Segment) (texts : List String) : List (Segment × String) :=
  segments.zip (texts.rightpad segments.length "")

/-- Segments with the parts at their places. Places without a part hold an empty one at byte
`stop`. -/
def placedParts (stop : Nat) (segments : List Segment) (parts : List Path.Part) :
    List (Segment × Path.Part) :=
  segments.zip (parts.rightpad segments.length ⟨stop, ""⟩)

theorem map_fst_placed (segments : List Segment) (texts : List String) :
    (placed segments texts).map Prod.fst = segments := by
  refine List.map_fst_zip ?_
  rw [List.length_rightpad]
  exact Nat.le_max_left _ _

theorem map_snd_placed {segments : List Segment} {texts : List String}
    (h : texts.length ≤ segments.length) :
    (placed segments texts).map Prod.snd = texts.rightpad segments.length "" := by
  refine List.map_snd_zip ?_
  rw [List.length_rightpad]
  exact Nat.max_le.mpr ⟨Nat.le_refl _, h⟩

/-! ## The walk along a path -/

theorem placedParts_cons (stop : Nat) (segment : Segment) (segments : List Segment)
    (parts : List Path.Part) :
    placedParts stop (segment :: segments) parts =
      (segment, firstPart stop parts) :: placedParts stop segments parts.tail := by
  cases parts with
  | nil => simp [placedParts, firstPart, List.rightpad, List.replicate_succ]
  | cons part parts => simp [placedParts, firstPart, List.rightpad]

/-- The walk ends well if no segment refuses the part at its place, and collects the spans that the
segments capture. -/
theorem spansFrom?_eq_some_iff {segments : List Segment} {stop : Nat}
    {parts : List Path.Part} {spans : List Span} :
    spansFrom? stop segments parts = some spans ↔
      (∀ x ∈ placedParts stop segments parts, x.1.judge x.2.text ≠ .refused) ∧
        (placedParts stop segments parts).filterMap (fun x => x.1.span? x.2) = spans := by
  induction segments generalizing parts spans with
  | nil => simp [spansFrom?, placedParts]
  | cons segment segments ih =>
    rw [placedParts_cons, spansFrom?, List.forall_mem_cons]
    by_cases hrefused : segment.judge (firstPart stop parts).text = .refused
    · simp [hrefused]
    · rw [Segment.judge_of_ne_refused hrefused]
      cases hcapture : segment.capture? (firstPart stop parts).text with
      | none =>
        have hspan : segment.span? (firstPart stop parts) = none := by
          rw [Segment.span?, hcapture, Option.map_none]
        simp [ih, hspan]
      | some pair =>
        have hspan : segment.span? (firstPart stop parts) =
            some (.ofPart pair.1 (firstPart stop parts)) := by
          rw [Segment.span?, hcapture, Option.map_some]
        simp [ih, hspan, and_assoc]

/-- Segments match a path if none of its parts lies behind them and they refuse none. -/
theorem spans?_eq_some_iff {segments : List Segment} {path : String} {spans : List Span} :
    spans? segments path = some spans ↔
      Path.partCount path ≤ segments.length ∧
        (∀ x ∈ placedParts path.utf8ByteSize segments (Path.parts path),
          x.1.judge x.2.text ≠ .refused) ∧
        (placedParts path.utf8ByteSize segments (Path.parts path)).filterMap
          (fun x => x.1.span? x.2) = spans := by
  rw [spans?]
  split
  case isTrue hlt => simp [Nat.not_le.mpr hlt]
  case isFalse hle =>
    rw [and_iff_right (Nat.not_lt.mp hle)]
    exact spansFrom?_eq_some_iff

/-- Where no literal is empty, nothing is refused exactly if every segment admits the text at its
place. -/
theorem forall_judge_ne_refused_iff {segments : List Segment} (h : .literal "" ∉ segments)
    {stop : Nat} {parts : List Path.Part} :
    (∀ x ∈ placedParts stop segments parts, x.1.judge x.2.text ≠ .refused) ↔
      ∀ x ∈ placedParts stop segments parts, x.1.Admits x.2.text := by
  refine forall₂_congr fun x hx => ?_
  exact Segment.judge_ne_refused_iff fun hliteral => h (hliteral ▸ (List.of_mem_zip hx).1)

theorem map_placedParts (path : String) (segments : List Segment) :
    (placedParts path.utf8ByteSize segments (Path.parts path)).map (fun x => (x.1, x.2.text)) =
      placed segments (Path.texts path) := by
  have htexts : (Path.parts path).map Path.Part.text = Path.texts path := Path.map_text_parts path
  rw [placed, ← htexts, placedParts, List.rightpad, List.rightpad, List.length_map]
  have hpad : (List.replicate (segments.length - (Path.parts path).length) "") =
      (List.replicate (segments.length - (Path.parts path).length)
        (⟨path.utf8ByteSize, ""⟩ : Path.Part)).map Path.Part.text := by
    rw [List.map_replicate]
  rw [hpad, ← List.map_append, List.zip_map_right]
  rfl

theorem isIn_of_mem_placedParts {path : String} {segments : List Segment}
    {x : Segment × Path.Part}
    (h : x ∈ placedParts path.utf8ByteSize segments (Path.parts path)) : x.2.IsIn path := by
  rcases List.mem_append.mp (List.of_mem_zip h).2 with hpart | hpad
  · exact Path.isIn_of_mem_parts hpart
  · rw [List.eq_of_mem_replicate hpad]
    exact Path.isIn_end path

end Pattern

/-! ## From spans to values -/

theorem Span.value_ofPart {path : String} {part : Path.Part} (h : part.IsIn path) (name : String) :
    (Span.ofPart name part).value path = part.text := by
  rw [Span.value, Span.ofPart, h, Option.getD_some]

/-- Every span is of the path that is kept, and cuts a slice out of it. -/
def Captures.SlicesOf (captures : Captures) (path : String) : Prop :=
  ∀ span ∈ captures.spans, captures.path? = some path ∧
    (Text.slice? path span.start span.stop).isSome

theorem Captures.toList_ofSpans (path : String) (spans : List Span) :
    (Captures.ofSpans path spans).toList = spans.map (·.pair path) := by
  cases spans <;> rfl

/-- The value of a name is that of the first pair with the name. -/
theorem Captures.get?_ofSpans (path : String) (spans : List Span) (name : String) :
    (Captures.ofSpans path spans).get? name =
      ((Captures.ofSpans path spans).toList.find? (·.1 = name)).map Prod.snd := by
  have hfind : spans.findSome? (fun span =>
      if span.name = name then some (span.value path) else none) =
        ((spans.map (·.pair path)).find? (·.1 = name)).map Prod.snd := by
    induction spans with
    | nil => rfl
    | cons span spans ih =>
      by_cases hname : span.name = name
      · simp [Span.pair, hname]
      · simpa [Span.pair, hname] using ih
  rw [Captures.toList_ofSpans, ← hfind]
  cases spans <;> rfl

namespace Pattern

/-- What segments capture along a path. -/
def capturesAlong (segments : List Segment) (path : String) : Captures :=
  .ofSpans path <|
    (placedParts path.utf8ByteSize segments (Path.parts path)).filterMap fun x => x.1.span? x.2

/-- The spans along a path cut out the texts that the segments capture. -/
theorem toList_capturesAlong (segments : List Segment) (path : String) :
    (capturesAlong segments path).toList =
      (placed segments (Path.texts path)).filterMap fun x => x.1.capture? x.2 := by
  rw [capturesAlong, Captures.toList_ofSpans, ← map_placedParts, List.filterMap_map,
    List.map_filterMap]
  apply List.filterMap_congr
  intro x hx
  rw [Function.comp_apply, Segment.span?, Option.map_map]
  cases hcapture : x.1.capture? x.2.text with
  | none => rfl
  | some pair =>
    obtain ⟨p, -, -, -, -, rfl⟩ := Segment.capture?_eq_some_iff.mp hcapture
    simp only [Option.map_some, Function.comp_apply, Span.pair,
      Span.value_ofPart (isIn_of_mem_placedParts hx)]
    rfl

theorem get?_capturesAlong (segments : List Segment) (path name : String) :
    (capturesAlong segments path).get? name =
      (((placed segments (Path.texts path)).filterMap fun x => x.1.capture? x.2).find?
        (·.1 = name)).map Prod.snd := by
  rw [← toList_capturesAlong, capturesAlong, Captures.get?_ofSpans]

theorem slicesOf_capturesAlong (segments : List Segment) (path : String) :
    (capturesAlong segments path).SlicesOf path := by
  intro span hspan
  obtain ⟨x, hx, hspan'⟩ := List.mem_filterMap.mp hspan
  obtain ⟨pair, -, rfl⟩ := Option.map_eq_some_iff.mp hspan'
  refine ⟨?_, ?_⟩
  · rw [capturesAlong, Captures.ofSpans, if_neg]
    intro hempty
    rw [capturesAlong, Captures.ofSpans, List.isEmpty_iff.mp hempty] at hspan
    exact absurd hspan List.not_mem_nil
  · rw [Span.ofPart, isIn_of_mem_placedParts hx]
    rfl

/-! ## Matching a path -/

variable {pattern : Pattern} {path : String}

/-- A path with the normal form of the pattern's text matches as it stands. -/
theorem find?_of_normalize_eq (h : Path.normalize path = pattern.normalized) :
    pattern.find? path = some .empty := by
  rw [find?, if_pos h]

/-- Any other path matches if it has no text without a place and every segment admits the text at
its place. -/
theorem find?_eq_some_iff (hlit : .literal "" ∉ pattern.segments)
    (h : Path.normalize path ≠ pattern.normalized) {captures : Captures} :
    pattern.find? path = some captures ↔
      (Path.texts (Path.normalize path)).length ≤ pattern.segments.length ∧
        (∀ x ∈ placed pattern.segments (Path.texts (Path.normalize path)), x.1.Admits x.2) ∧
        capturesAlong pattern.segments (Path.normalize path) = captures := by
  rw [find?, if_neg h, Option.map_eq_some_iff, Path.length_texts, ← map_placedParts,
    List.forall_mem_map]
  simp only [spans?_eq_some_iff, forall_judge_ne_refused_iff hlit]
  constructor
  · rintro ⟨spans, ⟨hcount, hadmits, rfl⟩, rfl⟩
    exact ⟨hcount, hadmits, rfl⟩
  · rintro ⟨hcount, hadmits, rfl⟩
    exact ⟨_, ⟨hcount, hadmits, rfl⟩, rfl⟩

theorem isSome_find?_iff (hlit : .literal "" ∉ pattern.segments)
    (h : Path.normalize path ≠ pattern.normalized) :
    (pattern.find? path).isSome ↔
      (Path.texts (Path.normalize path)).length ≤ pattern.segments.length ∧
        ∀ x ∈ placed pattern.segments (Path.texts (Path.normalize path)), x.1.Admits x.2 := by
  simp [Option.isSome_iff_exists, find?_eq_some_iff hlit h]

/-- A path with a text without a place does not match. -/
theorem find?_eq_none_of_length_lt (hlit : .literal "" ∉ pattern.segments)
    (h : Path.normalize path ≠ pattern.normalized)
    (hlt : pattern.segments.length < (Path.texts (Path.normalize path)).length) :
    pattern.find? path = none := by
  refine Option.not_isSome_iff_eq_none.mp fun hsome => ?_
  exact Nat.not_le.mpr hlt ((isSome_find?_iff hlit h).mp hsome).1

theorem toList_of_find? (hlit : .literal "" ∉ pattern.segments)
    (h : Path.normalize path ≠ pattern.normalized) {captures : Captures}
    (hfind : pattern.find? path = some captures) :
    captures.toList = (placed pattern.segments (Path.texts (Path.normalize path))).filterMap
      fun x => x.1.capture? x.2 := by
  obtain ⟨-, -, rfl⟩ := (find?_eq_some_iff hlit h).mp hfind
  exact toList_capturesAlong _ _

theorem slicesOf_of_find? (hlit : .literal "" ∉ pattern.segments)
    (h : Path.normalize path ≠ pattern.normalized) {captures : Captures}
    (hfind : pattern.find? path = some captures) : captures.SlicesOf (Path.normalize path) := by
  obtain ⟨-, -, rfl⟩ := (find?_eq_some_iff hlit h).mp hfind
  exact slicesOf_capturesAlong _ _

/-! ## Compiled patterns -/

/-- Compiled literals are runs of URL characters. -/
theorem literal_mem_compile {text word : String} (h : .literal word ∈ Segment.compile text) :
    word ≠ "" ∧ ∀ c ∈ word.toList, isUrlChar c = true := by
  obtain ⟨run, hmax, hsegment⟩ := exists_isMaximal_of_mem_compile h
  rw [UrlRun.segment] at hsegment
  split at hsegment
  case h_1 =>
    cases hsegment
    exact ⟨by simpa using hmax.chars_ne_nil, by simpa using hmax.isUrlChar_of_mem⟩
  case h_2 => cases hsegment

theorem empty_literal_notMem_compile (text : String) : .literal "" ∉ Segment.compile text :=
  fun h => (literal_mem_compile h).1 rfl

/-- **A compiled pattern matches position by position**, except that a path with the normal form of
its text matches without captures. -/
theorem find?_compile (text path : String) :
    (compile text).isMatch path = ((compile text).find? path).isSome ∧
      if Path.normalize path = Path.normalize text then
        (compile text).find? path = some .empty
      else if (compile text).segments.length < (Path.texts (Path.normalize path)).length then
        (compile text).find? path = none
      else
        (((compile text).find? path).isSome ↔
          ∀ x ∈ placed (compile text).segments (Path.texts (Path.normalize path)),
            x.1.Admits x.2) ∧
        ∀ captures, (compile text).find? path = some captures →
          captures.toList =
            (placed (compile text).segments (Path.texts (Path.normalize path))).filterMap
              (fun x => x.1.capture? x.2) ∧
          captures.SlicesOf (Path.normalize path) := by
  have hlit : .literal "" ∉ (compile text).segments := empty_literal_notMem_compile text
  have hnormal : Path.normalize text = (compile text).normalized := rfl
  rw [hnormal]
  -- from here on it only counts that no literal is empty
  generalize compile text = pattern at hlit
  have hmatch := isMatch_eq_isSome_find? pattern path
  by_cases h : Path.normalize path = pattern.normalized
  · rw [if_pos h]
    exact ⟨hmatch, find?_of_normalize_eq h⟩
  · by_cases hlt : pattern.segments.length < (Path.texts (Path.normalize path)).length
    · rw [if_neg h, if_pos hlt]
      exact ⟨hmatch, find?_eq_none_of_length_lt hlit h hlt⟩
    · rw [if_neg h, if_neg hlt]
      refine ⟨hmatch, ?_, fun captures hfind => ?_⟩
      · rw [isSome_find?_iff hlit h]
        exact and_iff_right (Nat.not_lt.mp hlt)
      · exact ⟨toList_of_find? hlit h hfind, slicesOf_of_find? hlit h hfind⟩

end Pattern

end PathRouting
