import Mathlib.Data.List.TakeWhile
import PathRouting.Proofs.Pattern.Positions

/-!
# Rendering segments

Segments are rendered with a slash between them: a literal as it stands, and a placeholder as
`name:type` in braces, with a `?` after both if it is optional. A segment is well formed if it can
be read from a text at all (`isWellFormed_of_mem_compile`), and then reading its rendered form gives
it back (`compile_renderAll`). Hence the well-formed lists of segments are exactly those that texts
compile to (`exists_compile_eq_iff_isWellFormed`).

A required placeholder is rendered without a `?`, so that neither its name nor its type may end
with one.
-/

namespace PathRouting

open Pattern (isUrlChar UrlRun runsFrom)

/-! ## Well-formed segments -/

/-- Whether a text ends with the mark of an optional placeholder. -/
def EndsInMark (text : String) : Prop :=
  text.toList.getLast? = some '?'

instance (text : String) : Decidable (EndsInMark text) :=
  inferInstanceAs (Decidable (_ = _))

/-- A custom type has a name of URL characters, which is not that of another type. -/
def ValueType.IsWellFormed : ValueType → Prop
  | .custom name =>
    name ≠ "" ∧ (∀ c ∈ name.toList, isUrlChar c = true) ∧ name ∉ ["int", "string", "email", "ip"]
  | _ => True

/-- A placeholder has a name of URL characters without a colon. If it is required, neither its name
nor its type ends with a mark. -/
structure Placeholder.IsWellFormed (p : Placeholder) : Prop where
  isUrlChar_of_mem_name : ∀ c ∈ p.name.toList, isUrlChar c = true ∧ c ≠ ':'
  valueType : p.valueType.IsWellFormed
  not_endsInMark : p.isOptional = false → ¬ EndsInMark p.name ∧ ¬ EndsInMark p.valueType.name

/-- A literal is a text of URL characters that is not empty. -/
def Segment.IsWellFormed : Segment → Prop
  | .literal text => text ≠ "" ∧ ∀ c ∈ text.toList, isUrlChar c = true
  | .placeholder p => p.IsWellFormed

/-! ## Rendered forms -/

/-- The mark of an optional placeholder, and nothing for a required one. -/
def Placeholder.mark (isOptional : Bool) : String :=
  if isOptional then "?" else ""

/-- The written form of a placeholder, with a mark after the name and the type. -/
def Placeholder.spec (p : Placeholder) : String :=
  p.name ++ mark p.isOptional ++ ":" ++ (p.valueType.name ++ mark p.isOptional)

namespace Segment

/-- The text of a segment. -/
def render : Segment → String
  | .literal text => text
  | .placeholder p => r"{" ++ p.spec ++ r"}"

/-- The text of some segments. -/
def renderAll (segments : List Segment) : String :=
  "/".intercalate (segments.map render)

end Segment

/-! ## Types -/

namespace ValueType

theorem isWellFormed_ofName {name : String} (h : ∀ c ∈ name.toList, isUrlChar c = true) :
    (ofName name).IsWellFormed := by
  unfold ofName
  repeat' split
  all_goals simp_all [IsWellFormed]

theorem IsWellFormed.ofName_name {type : ValueType} (h : type.IsWellFormed) :
    ofName type.name = type := by
  cases type with
  | custom text =>
    obtain ⟨hne, -, hother⟩ := h
    simp only [List.mem_cons, List.not_mem_nil, or_false, not_or] at hother
    simp [ofName, name, hne, hother]
  | _ => rfl

theorem IsWellFormed.isUrlChar_of_mem_name {type : ValueType} (h : type.IsWellFormed) :
    ∀ c ∈ type.name.toList, isUrlChar c = true := by
  cases type with
  | custom text => exact h.2.1
  | _ => exact List.all_eq_true.mp (by decide)

end ValueType

/-! ## Placeholders -/

namespace Placeholder

theorem splitMark_append_mark {cs : List Char} {isOptional : Bool}
    (h : isOptional = false → cs.getLast? ≠ some '?') :
    splitMark (cs ++ (mark isOptional).toList) = (cs, isOptional) := by
  cases isOptional with
  | true => simp [splitMark, mark]
  | false => simp [splitMark, mark, h rfl]

theorem mem_of_mem_splitMark {cs : List Char} {c : Char} (h : c ∈ (splitMark cs).1) : c ∈ cs := by
  unfold splitMark at h
  split at h
  case isTrue => exact (List.dropLast_sublist cs).subset h
  case isFalse => exact h

/-- Without a mark the text is kept as it is. -/
theorem getLast?_splitMark_ne {cs : List Char} (h : (splitMark cs).2 = false) :
    (splitMark cs).1.getLast? ≠ some '?' := by
  unfold splitMark at h ⊢
  split at h
  case isTrue => cases h
  case isFalse hmark => rwa [if_neg hmark]

/-- What is read from URL characters is well formed. -/
theorem isWellFormed_ofSpec {spec : String} (h : ∀ c ∈ spec.toList, isUrlChar c = true) :
    (ofSpec spec).IsWellFormed where
  isUrlChar_of_mem_name c hc := by
    rw [ofSpec, String.toList_ofList] at hc
    have hname := mem_of_mem_splitMark hc
    exact ⟨h c ((List.takeWhile_sublist _).subset hname),
      by simpa using List.mem_takeWhile_imp hname⟩
  valueType := by
    refine ValueType.isWellFormed_ofName fun c hc => ?_
    rw [String.toList_ofList] at hc
    have htype := List.mem_of_mem_tail (mem_of_mem_splitMark hc)
    exact h c ((List.dropWhile_sublist _).subset htype)
  not_endsInMark hopt := by
    obtain ⟨hname, htype⟩ := Bool.or_eq_false_iff.mp hopt
    rw [ofSpec, ValueType.name_ofName, EndsInMark, EndsInMark, String.toList_ofList,
      String.toList_ofList]
    exact ⟨getLast?_splitMark_ne hname, getLast?_splitMark_ne htype⟩

theorem toList_spec (p : Placeholder) :
    p.spec.toList = (p.name.toList ++ (mark p.isOptional).toList) ++
      ':' :: (p.valueType.name.toList ++ (mark p.isOptional).toList) := by
  simp [spec]

theorem isUrlChar_of_mem_mark {isOptional : Bool} {c : Char} (h : c ∈ (mark isOptional).toList) :
    isUrlChar c = true ∧ c ≠ ':' := by
  cases isOptional with
  | true =>
    obtain rfl : c = '?' := by simpa [mark] using h
    decide
  | false => simp [mark] at h

theorem IsWellFormed.isUrlChar_of_mem_spec {p : Placeholder} (h : p.IsWellFormed) :
    ∀ c ∈ p.spec.toList, isUrlChar c = true := by
  intro c hc
  rw [toList_spec, List.mem_append, List.mem_append, List.mem_cons, List.mem_append] at hc
  rcases hc with (hname | hmark) | rfl | htype | hmark
  · exact (h.isUrlChar_of_mem_name c hname).1
  · exact (isUrlChar_of_mem_mark hmark).1
  · decide
  · exact h.valueType.isUrlChar_of_mem_name c htype
  · exact (isUrlChar_of_mem_mark hmark).1

/-- The written form is read back: its first colon ends the name, and one mark is taken off the
name and the type. -/
theorem IsWellFormed.ofSpec_spec {p : Placeholder} (h : p.IsWellFormed) : ofSpec p.spec = p := by
  have hcolon : ∀ c ∈ p.name.toList ++ (mark p.isOptional).toList, c ≠ ':' := by
    intro c hc
    rcases List.mem_append.mp hc with hname | hmark
    · exact (h.isUrlChar_of_mem_name c hname).2
    · exact (isUrlChar_of_mem_mark hmark).2
  have hname := splitMark_append_mark fun hopt => (h.not_endsInMark hopt).1
  have htype := splitMark_append_mark fun hopt => (h.not_endsInMark hopt).2
  rw [ofSpec, toList_spec, List.takeWhile_append_of_pos (by simpa using hcolon),
    List.dropWhile_append_of_pos (by simpa using hcolon)]
  simp [hname, htype, h.valueType.ofName_name]

end Placeholder

/-! ## Segments -/

namespace Segment

/-- Compiled segments are well formed. -/
theorem isWellFormed_of_mem_compile {text : String} {segment : Segment}
    (h : segment ∈ compile text) : segment.IsWellFormed := by
  cases segment with
  | literal word => exact Pattern.literal_mem_compile h
  | placeholder p =>
    obtain ⟨run, hmax, hsegment⟩ := Pattern.exists_isMaximal_of_mem_compile h
    rw [UrlRun.segment] at hsegment
    split at hsegment
    case h_1 => cases hsegment
    case h_2 =>
      cases hsegment
      exact Placeholder.isWellFormed_ofSpec (by simpa using hmax.isUrlChar_of_mem)

variable {before : List Char}

/-- Behind a slash, or at the start of a text, the text of a segment is read as the segment. -/
theorem IsWellFormed.map_segment_runsFrom {segment : Segment} (h : segment.IsWellFormed)
    (hbefore : ∀ c, before.getLast? = some c → c = '/') (after : List Char)
    (hafter : ∀ c, after.head? = some c → isUrlChar c = false) :
    (runsFrom before (segment.render.toList ++ after)).map UrlRun.segment =
      segment :: (runsFrom (before ++ segment.render.toList) after).map UrlRun.segment := by
  cases segment with
  | literal text =>
    have hends : Pattern.endsInUrlChar before = false := by
      refine Pattern.endsInUrlChar_eq_false_iff.mpr fun c hc => ?_
      rw [hbefore c hc]
      decide
    have hkind : UrlRun.kind ⟨before, text.toList, after⟩ = .literal :=
      if_neg fun hbrace => absurd (hbefore _ hbrace) (by decide)
    have hne : text.toList ≠ [] := fun hnil => h.1 (String.toList_eq_nil_iff.mp hnil)
    rw [render, Pattern.runsFrom_run hends hne h.2 hafter, List.map_cons, UrlRun.segment, hkind]
    simp
  | placeholder p =>
    have hends : Pattern.endsInUrlChar (before ++ ['{']) = false := by
      rw [Pattern.endsInUrlChar_concat]
      decide
    have hkind : UrlRun.kind ⟨before ++ ['{'], p.spec.toList, '}' :: after⟩ =
        .placeholder := if_pos (by simp)
    have hne : p.spec.toList ≠ [] := by simp [Placeholder.toList_spec]
    have hrender : (Segment.placeholder p).render.toList =
        '{' :: (p.spec.toList ++ ['}']) := by simp [render]
    rw [hrender, List.cons_append, List.append_assoc, List.singleton_append,
      Pattern.runsFrom_of_not_isUrlChar (by decide),
      Pattern.runsFrom_run hends hne h.isUrlChar_of_mem_spec (by simp; decide),
      Pattern.runsFrom_of_not_isUrlChar (by decide), List.map_cons, UrlRun.segment, hkind]
    simp [h.ofSpec_spec]

theorem map_segment_runsFrom_intercalate {segments : List Segment}
    (h : ∀ segment ∈ segments, segment.IsWellFormed)
    (hbefore : ∀ c, before.getLast? = some c → c = '/') :
    (runsFrom before (['/'].intercalate (segments.map fun segment => segment.render.toList))).map
      UrlRun.segment = segments := by
  induction segments generalizing before with
  | nil => simp [runsFrom]
  | cons segment segments ih =>
    obtain ⟨hsegment, hsegments⟩ := List.forall_mem_cons.mp h
    cases segments with
    | nil =>
      have hread := hsegment.map_segment_runsFrom hbefore [] (by simp)
      simpa [runsFrom] using hread
    | cons next segments =>
      have hslash : isUrlChar '/' = false := by decide
      have hend : ∀ c, (before ++ segment.render.toList ++ ['/']).getLast? = some c → c = '/' := by
        simp
      rw [List.map_cons, List.map_cons, List.intercalate_cons_cons, List.append_assoc,
        hsegment.map_segment_runsFrom hbefore _ (by simp [hslash]), List.singleton_append,
        Pattern.runsFrom_of_not_isUrlChar hslash]
      exact congrArg (segment :: ·) (ih hsegments hend)

/-- **What is rendered is read back.** -/
theorem compile_renderAll {segments : List Segment}
    (h : ∀ segment ∈ segments, segment.IsWellFormed) : compile (renderAll segments) = segments := by
  have htext : (renderAll segments).toList =
      ['/'].intercalate (segments.map fun segment => segment.render.toList) := by
    simp [renderAll, String.toList_intercalate, Function.comp_def]
  rw [Pattern.compile_eq_map_segment, Pattern.runs, htext]
  exact map_segment_runsFrom_intercalate h (by simp)

/-- **Texts compile to exactly the well-formed lists of segments**, and exactly these are read back
from their rendered form. -/
theorem exists_compile_eq_iff_isWellFormed (segments : List Segment) :
    ((∃ text, compile text = segments) ↔ ∀ segment ∈ segments, segment.IsWellFormed) ∧
      (compile (renderAll segments) = segments ↔
        ∀ segment ∈ segments, segment.IsWellFormed) := by
  have hcompile : (∃ text, compile text = segments) →
      ∀ segment ∈ segments, segment.IsWellFormed := by
    rintro ⟨text, rfl⟩ segment hmem
    exact isWellFormed_of_mem_compile hmem
  refine ⟨⟨hcompile, fun h => ⟨_, compile_renderAll h⟩⟩, ?_, compile_renderAll⟩
  exact fun hread => hcompile ⟨_, hread⟩

/-- Marks and colons inside a name or a type are kept. -/
example : compile (renderAll [.placeholder ⟨"a?", .custom "b:c?", true⟩,
    .placeholder ⟨"", .untyped, false⟩, .literal "d"]) =
      [.placeholder ⟨"a?", .custom "b:c?", true⟩, .placeholder ⟨"", .untyped, false⟩,
        .literal "d"] := by
  decide +kernel

end Segment

end PathRouting
