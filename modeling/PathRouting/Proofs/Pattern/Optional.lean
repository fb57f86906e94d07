import Mathlib.Data.List.Forall2
import Mathlib.Data.List.ReduceOption
import PathRouting.Proofs.Pattern.Positions

/-!
# Optional placeholders

An optional placeholder refuses nothing. So a path that matches still matches when placeholders
are made optional (`Pattern.ne_refused_of_relaxesTo`), and at every place the same value is
captured, except that a placeholder which was made optional leaves an empty value out
(`Pattern.getElem?_map_span?_of_relaxesTo`). Optional placeholders behind the end of a path
capture nothing (`Pattern.spansFrom?_append_optional`).

Values are compared place by place. Two placeholders of one name may both capture the empty text at
the end of a path, so that the captured spans alone do not tell which of them is left out.
-/

namespace PathRouting

namespace Segment

/-- The segment with its placeholder made optional. -/
def toOptional : Segment → Segment
  | .literal text => .literal text
  | .placeholder p => .placeholder { p with isOptional := true }

/-- A segment relaxes to itself, and to the segment with its placeholder made optional. -/
def RelaxesTo (segment relaxed : Segment) : Prop :=
  relaxed = segment ∨ relaxed = segment.toOptional

variable {segment relaxed : Segment} {part : String} {p : Placeholder}

theorem judge_ne_refused_of_isOptional (h : p.isOptional = true) :
    (placeholder p).judge part ≠ .refused := by
  unfold judge
  repeat' split
  all_goals simp_all

theorem RelaxesTo.judge_ne_refused (h : segment.RelaxesTo relaxed)
    (hjudge : segment.judge part ≠ .refused) : relaxed.judge part ≠ .refused := by
  rcases h with rfl | rfl
  · exact hjudge
  · cases segment with
    | literal text => exact hjudge
    | placeholder p => exact judge_ne_refused_of_isOptional rfl

/-- A placeholder that was made optional captures what it captured before, unless it is empty. -/
theorem capture?_toOptional (h : segment.toOptional ≠ segment) :
    segment.toOptional.capture? part = (segment.capture? part).filter (·.2 ≠ "") := by
  cases segment with
  | literal text => exact absurd rfl h
  | placeholder p =>
    have hrequired : p.isOptional ≠ true := fun hopt => h (by rw [toOptional, ← hopt])
    rw [toOptional, capture?, capture?]
    by_cases hempty : part = ""
    · rw [if_neg fun hcapture => hcapture.2.2 ⟨rfl, hempty⟩]
      split
      case isTrue => simp [Option.filter_some, hempty]
      case isFalse => rfl
    · by_cases hcapture : p.name ≠ "" ∧ p.valueType.accepts part = true
      · simp [Option.filter_some, hcapture, hempty]
      · rw [if_neg fun h => hcapture ⟨h.1, h.2.1⟩, if_neg fun h => hcapture ⟨h.1, h.2.1⟩]
        rfl

theorem RelaxesTo.span?_eq {path : String} {part : Path.Part} (h : segment.RelaxesTo relaxed)
    (hpart : part.IsIn path) :
    relaxed.span? part =
      if relaxed = segment then segment.span? part
      else (segment.span? part).filter (·.value path ≠ "") := by
  split
  case isTrue heq => rw [heq]
  case isFalse hne =>
    obtain rfl := h.resolve_left hne
    rw [span?, span?, capture?_toOptional hne]
    cases hcapture : segment.capture? part.text with
    | none => rfl
    | some pair =>
      obtain ⟨p, -, -, -, -, rfl⟩ := capture?_eq_some_iff.mp hcapture
      rw [Option.map_some, Option.filter_some, Option.filter_some, Span.value_ofPart hpart]
      split <;> rfl

end Segment

namespace Pattern

variable {segments relaxed : List Segment} {path : String} {parts : List Path.Part} {stop : Nat}

/-- What segments capture along a path, each at its place. -/
def spansByPlace (segments : List Segment) (path : String) : List (Option Span) :=
  (placedParts path.utf8ByteSize segments (Path.parts path)).map fun x => x.1.span? x.2

theorem reduceOption_spansByPlace (segments : List Segment) (path : String) :
    (spansByPlace segments path).reduceOption =
      (placedParts path.utf8ByteSize segments (Path.parts path)).filterMap
        fun x => x.1.span? x.2 := by
  rw [spansByPlace, List.reduceOption, List.filterMap_map]
  rfl

/-! ## Placeholders made optional -/

theorem ne_refused_of_relaxesTo (h : List.Forall₂ Segment.RelaxesTo segments relaxed)
    (hall : ∀ x ∈ segments.zip parts, x.1.judge x.2.text ≠ .refused) :
    ∀ x ∈ relaxed.zip parts, x.1.judge x.2.text ≠ .refused := by
  induction h generalizing parts with
  | nil => simp
  | cons hsegment _ ih =>
    cases parts with
    | nil => simp
    | cons part parts =>
      rw [List.zip_cons_cons, List.forall_mem_cons] at hall ⊢
      exact ⟨hsegment.judge_ne_refused hall.1, ih hall.2⟩

theorem getElem?_map_span?_of_relaxesTo (h : List.Forall₂ Segment.RelaxesTo segments relaxed)
    (hparts : ∀ x ∈ segments.zip parts, x.2.IsIn path) (place : Nat) :
    ((relaxed.zip parts).map fun x => x.1.span? x.2)[place]? =
      if relaxed[place]? = segments[place]? then
        ((segments.zip parts).map fun x => x.1.span? x.2)[place]?
      else
        ((segments.zip parts).map fun x => x.1.span? x.2)[place]?.map
          (·.filter (·.value path ≠ "")) := by
  induction h generalizing parts place with
  | nil => simp
  | cons hsegment _ ih =>
    cases parts with
    | nil => simp
    | cons part parts =>
      rw [List.zip_cons_cons, List.forall_mem_cons] at hparts
      cases place with
      | zero => simp [hsegment.span?_eq hparts.1, apply_ite some]
      | succ place => simpa using ih hparts.2 place

/-! ## Placeholders behind the end -/

theorem spansFrom?_of_optional {optionals : List Placeholder}
    (h : ∀ p ∈ optionals, p.isOptional = true) :
    spansFrom? stop (optionals.map .placeholder) [] = some [] := by
  induction optionals with
  | nil => rfl
  | cons p optionals ih =>
    obtain ⟨hp, hoptionals⟩ := List.forall_mem_cons.mp h
    have hjudge : (Segment.placeholder p).judge (firstPart stop []).text = .passed := by
      simp [Segment.judge, firstPart, hp]
    rw [List.map_cons, spansFrom?, hjudge]
    exact ih hoptionals

/-- Optional placeholders behind the last part capture nothing. -/
theorem spansFrom?_append_optional {optionals : List Placeholder}
    (h : ∀ p ∈ optionals, p.isOptional = true) (hlen : parts.length ≤ segments.length) :
    spansFrom? stop (segments ++ optionals.map .placeholder) parts =
      spansFrom? stop segments parts := by
  induction segments generalizing parts with
  | nil =>
    obtain rfl : parts = [] := List.eq_nil_of_length_eq_zero (Nat.le_zero.mp hlen)
    exact spansFrom?_of_optional h
  | cons segment segments ih =>
    have htail : parts.tail.length ≤ segments.length := by
      rw [List.length_cons] at hlen
      rw [List.length_tail]
      omega
    simp only [List.cons_append, spansFrom?, ih htail]

/-- **Optional placeholders widen a match.** If segments match a path, so they do when some of their
placeholders are made optional, and then each place captures the value that it captured before,
except that a placeholder which was made optional captures no empty value. Optional placeholders
behind the segments change nothing. -/
theorem spans?_of_optional {spans : List Span} (h : spans? segments path = some spans) :
    spans = (spansByPlace segments path).reduceOption ∧
    (∀ relaxed, List.Forall₂ Segment.RelaxesTo segments relaxed →
      spans? relaxed path = some (spansByPlace relaxed path).reduceOption ∧
      ∀ place : Nat, (spansByPlace relaxed path)[place]? =
        if relaxed[place]? = segments[place]? then (spansByPlace segments path)[place]?
        else (spansByPlace segments path)[place]?.map (·.filter (·.value path ≠ ""))) ∧
    ∀ optionals : List Placeholder, (∀ p ∈ optionals, p.isOptional = true) →
      spans? (segments ++ optionals.map .placeholder) path = some spans := by
  obtain ⟨hcount, hall, hspans⟩ := spans?_eq_some_iff.mp h
  rw [← reduceOption_spansByPlace] at hspans
  refine ⟨hspans.symm, fun relaxed hrelaxed => ⟨?_, fun place => ?_⟩,
    fun optionals hoptionals => ?_⟩
  · rw [reduceOption_spansByPlace]
    refine spans?_eq_some_iff.mpr ⟨hrelaxed.length_eq ▸ hcount, ?_, rfl⟩
    rw [placedParts, ← hrelaxed.length_eq]
    exact ne_refused_of_relaxesTo hrelaxed hall
  · rw [spansByPlace, placedParts, ← hrelaxed.length_eq]
    exact getElem?_map_span?_of_relaxesTo hrelaxed (fun x => isIn_of_mem_placedParts) place
  · have hlen : (Path.parts path).length ≤ segments.length := by rwa [Path.length_parts]
    rw [← h, spans?, spans?, spansFrom?_append_optional hoptionals hlen, List.length_append,
      if_neg (by omega), if_neg (by omega)]

/-- Of two placeholders of one name the first is made optional: the empty value that is left comes
from the second. -/
theorem spans?_of_optional_of_shared_name :
    let required : Segment := .placeholder ⟨"a", .untyped, false⟩
    let optional : Segment := .placeholder ⟨"a", .untyped, true⟩
    spans? [.literal "é", required, required] "é" = some [⟨"a", 2, 2⟩, ⟨"a", 2, 2⟩] ∧
    List.Forall₂ Segment.RelaxesTo [.literal "é", required, required]
      [.literal "é", optional, required] ∧
    spans? [.literal "é", optional, required] "é" = some [⟨"a", 2, 2⟩] ∧
    (spansByPlace [.literal "é", optional, required] "é")[1]? = some none ∧
    spans? [.literal "é", required, required, optional] "é" =
      some [⟨"a", 2, 2⟩, ⟨"a", 2, 2⟩] := by
  intro required optional
  have hspans : spans? [.literal "é", required, required] "é" =
      some [⟨"a", 2, 2⟩, ⟨"a", 2, 2⟩] := by decide +kernel
  have hrelaxed : List.Forall₂ Segment.RelaxesTo [.literal "é", required, required]
      [.literal "é", optional, required] :=
    .cons (.inl rfl) (.cons (.inr rfl) (.cons (.inl rfl) .nil))
  obtain ⟨-, hwider, hbehind⟩ := spans?_of_optional hspans
  obtain ⟨hfewer, hplaces⟩ := hwider _ hrelaxed
  exact ⟨hspans, hrelaxed, hfewer.trans (by decide +kernel), (hplaces 1).trans (by decide +kernel),
    hbehind [⟨"a", .untyped, true⟩] (by simp)⟩

end Pattern

end PathRouting
