import PathRouting.Pattern.Uri
import PathRouting.Proofs.Path.NormalForm

/-!
# The texts of a URI

A URI is written from the segments that have a text: a literal has its own, a placeholder the
value of its name. All others are placeholders without a value. An optional one opens a gap, behind
which nothing is written (`uriFrom_some_eq`).

So a URI is built exactly if the segments with a text come first and all others may be left out
(`uriFrom_none_eq_ok_iff`). Its pieces are the texts that are not empty
(`pieces_of_uriWith_compile`).
-/

namespace PathRouting

namespace Segment

variable {value? : String → Option String} {segment : Segment}

/-- The text of a segment: a literal has its own, a placeholder the value of its name. -/
def text? (value? : String → Option String) : Segment → Option String
  | .literal text => some text
  | .placeholder p => value? p.name

/-- A segment may be left out of a URI: it is an optional placeholder without a value. -/
def IsOmitted (value? : String → Option String) (segment : Segment) : Prop :=
  ∃ p, segment = .placeholder p ∧ p.isOptional = true ∧ value? p.name = none

theorem IsOmitted.text?_eq_none (h : segment.IsOmitted value?) : segment.text? value? = none := by
  obtain ⟨p, rfl, -, hvalue⟩ := h
  exact hvalue

/-- The placeholder of a segment that has no value. -/
def missing? (value? : String → Option String) : Segment → Option Placeholder
  | .literal _ => none
  | .placeholder p => if value? p.name = none then some p else none

theorem missing?_eq_some_iff {p : Placeholder} :
    segment.missing? value? = some p ↔ segment = .placeholder p ∧ value? p.name = none := by
  cases segment with
  | literal text => simp [missing?]
  | placeholder q =>
    rw [missing?, placeholder.injEq]
    split
    case isTrue h =>
      rw [Option.some.injEq]
      exact ⟨by rintro rfl; exact ⟨rfl, h⟩, And.left⟩
    case isFalse h => exact ⟨nofun, by rintro ⟨rfl, hvalue⟩; exact absurd hvalue h⟩

/-- Every segment has a text or is a placeholder without a value. -/
theorem missing?_eq_none_iff :
    segment.missing? value? = none ↔ ∃ text, segment.text? value? = some text := by
  cases segment with
  | literal text => simp [missing?, text?]
  | placeholder p => simp [missing?, text?, Option.ne_none_iff_exists']

theorem text?_eq_none_iff :
    segment.text? value? = none ↔ ∃ p, segment.missing? value? = some p := by
  rw [← Option.ne_none_iff_exists', ne_eq, missing?_eq_none_iff, ← Option.ne_none_iff_exists',
    ne_eq, Classical.not_not]

theorem isOmitted_iff :
    segment.IsOmitted value? ↔ ∃ p, segment.missing? value? = some p ∧ p.isOptional = true := by
  simp only [IsOmitted, missing?_eq_some_iff]
  exact exists_congr fun p => by rw [and_assoc, and_comm (a := p.isOptional = true)]

instance : Decidable (segment.IsOmitted value?) :=
  decidable_of_iff ((segment.missing? value?).any (·.isOptional)) <| by
    rw [isOmitted_iff, Option.any_eq_true]

/-! ## Contributions -/

theorem contribution_of_text? {text : String} (h : segment.text? value? = some text) :
    segment.contribution value? = .part text := by
  cases segment with
  | literal word => rw [contribution, ← Option.some.inj h]
  | placeholder p =>
    have hvalue : value? p.name = some text := h
    rw [contribution, hvalue]

theorem contribution_of_missing? {p : Placeholder} (h : segment.missing? value? = some p) :
    segment.contribution value? = if p.isOptional then .gap p.name else .missing p.name := by
  obtain ⟨rfl, hvalue⟩ := missing?_eq_some_iff.mp h
  rw [contribution, hvalue]

end Segment

namespace Pattern

/-- The segments that have a text, with their texts. -/
def written (value? : String → Option String) (segments : List Segment) :
    List (Segment × String) :=
  segments.filterMap fun segment => (segment.text? value?).map (segment, ·)

variable {value? : String → Option String} {segment : Segment} {segments : List Segment}
  {uri : String}

theorem mem_written {x : Segment × String} :
    x ∈ written value? segments ↔ x.1 ∈ segments ∧ x.1.text? value? = some x.2 := by
  rw [written, List.mem_filterMap]
  constructor
  · rintro ⟨segment, hmem, hx⟩
    obtain ⟨text, htext, rfl⟩ := Option.map_eq_some_iff.mp hx
    exact ⟨hmem, htext⟩
  · rintro ⟨hmem, htext⟩
    exact ⟨x.1, hmem, by rw [htext, Option.map_some]⟩

theorem length_written_le (value? : String → Option String) (segments : List Segment) :
    (written value? segments).length ≤ segments.length :=
  List.length_filterMap_le _ _

theorem written_cons_of_some {text : String} (h : segment.text? value? = some text) :
    written value? (segment :: segments) = (segment, text) :: written value? segments := by
  rw [written, List.filterMap_cons, h, Option.map_some, written]

theorem written_cons_of_none (h : segment.text? value? = none) :
    written value? (segment :: segments) = written value? segments := by
  rw [written, List.filterMap_cons, h, Option.map_none, written]

theorem written_of_forall_isOmitted (h : ∀ other ∈ segments, other.IsOmitted value?) :
    written value? segments = [] := by
  rw [written, List.filterMap_eq_nil_iff]
  intro other hmem
  rw [(h other hmem).text?_eq_none, Option.map_none]

/-- The segments that have a text come first, and all others may be left out. -/
def WrittenFirst (value? : String → Option String) (segments : List Segment) : Prop :=
  ∃ omitted, segments = (written value? segments).map Prod.fst ++ omitted ∧
    ∀ other ∈ omitted, other.IsOmitted value?

theorem writtenFirst_cons_of_some {text : String} (h : segment.text? value? = some text) :
    WrittenFirst value? (segment :: segments) ↔ WrittenFirst value? segments := by
  rw [WrittenFirst, WrittenFirst, written_cons_of_some h]
  simp

/-- Without a text for the first segment, all of them have to be left out. -/
theorem writtenFirst_cons_of_none (h : segment.text? value? = none) :
    WrittenFirst value? (segment :: segments) ↔
      ∀ other ∈ segment :: segments, other.IsOmitted value? := by
  constructor
  · rintro ⟨omitted, heq, homitted⟩
    cases hwritten : written value? (segment :: segments) with
    | nil =>
      rw [hwritten, List.map_nil, List.nil_append] at heq
      rw [heq]
      exact homitted
    | cons x rest =>
      have hx : x.1.text? value? = some x.2 := (mem_written.mp (hwritten ▸ List.mem_cons_self)).2
      rw [hwritten, List.map_cons, List.cons_append] at heq
      rw [← (List.cons.inj heq).1, h] at hx
      cases hx
  · intro homitted
    refine ⟨segment :: segments, ?_, homitted⟩
    rw [written_of_forall_isOmitted homitted, List.map_nil, List.nil_append]

/-! ## Building step by step -/

/-- A text is written before the texts behind it. -/
theorem uriFrom_none_cons_of_text? {text : String} (h : segment.text? value? = some text) :
    uriFrom value? none (segment :: segments) =
      (uriFrom value? none segments).map fun rest => "/" ++ text ++ rest := by
  simp only [uriFrom, Segment.contribution_of_text? h]

/-- Behind a gap a text leaves the gap unresolved. -/
theorem uriFrom_some_cons_of_text? {text : String} (h : segment.text? value? = some text)
    (gap : String) : uriFrom value? (some gap) (segment :: segments) = .error gap := by
  simp only [uriFrom, Segment.contribution_of_text? h]

/-- A placeholder without a value is a gap if it is optional, and unresolved otherwise. -/
theorem uriFrom_cons_of_missing? {p : Placeholder} (h : segment.missing? value? = some p)
    (gap? : Option String) :
    uriFrom value? gap? (segment :: segments) =
      if p.isOptional then uriFrom value? (gap?.or (some p.name)) segments else .error p.name := by
  simp only [uriFrom, Segment.contribution_of_missing? h]
  cases p.isOptional <;> rfl

/-- Behind a gap nothing is written. The first segment that may not be left out leaves either
itself or the gap unresolved. -/
theorem uriFrom_some_eq (gap : String) (segments : List Segment) :
    uriFrom value? (some gap) segments =
      match segments.find? fun segment => ¬ segment.IsOmitted value? with
      | none => .ok ""
      | some next => .error (((next.missing? value?).map Placeholder.name).getD gap) := by
  induction segments with
  | nil => rfl
  | cons segment segments ih =>
    cases hmissing : segment.missing? value? with
    | none =>
      obtain ⟨text, htext⟩ := Segment.missing?_eq_none_iff.mp hmissing
      have hkept : ¬ segment.IsOmitted value? := by simp [Segment.isOmitted_iff, hmissing]
      rw [List.find?_cons_of_pos (by simpa using hkept), uriFrom_some_cons_of_text? htext]
      simp [hmissing]
    | some p =>
      rw [uriFrom_cons_of_missing? hmissing]
      by_cases hopt : p.isOptional = true
      · have homitted : segment.IsOmitted value? := Segment.isOmitted_iff.mpr ⟨p, hmissing, hopt⟩
        rw [List.find?_cons_of_neg (by simpa using homitted), ← ih, if_pos hopt]
        rfl
      · have hkept : ¬ segment.IsOmitted value? := by
          simp [Segment.isOmitted_iff, hmissing, hopt]
        rw [List.find?_cons_of_pos (by simpa using hkept), if_neg hopt]
        simp [hmissing]

/-! ## When a URI is built -/

theorem uriFrom_some_eq_ok_iff {gap : String} :
    uriFrom value? (some gap) segments = .ok uri ↔
      (∀ other ∈ segments, other.IsOmitted value?) ∧ uri = "" := by
  have hfind : (segments.find? fun segment => ¬ segment.IsOmitted value?) = none ↔
      ∀ other ∈ segments, other.IsOmitted value? := by
    simp [List.find?_eq_none]
  rw [uriFrom_some_eq, ← hfind]
  cases segments.find? fun segment => ¬ segment.IsOmitted value? with
  | none => simp [eq_comm]
  | some next => simp

theorem uriFrom_cons_eq_ok_iff {text : String} (h : segment.text? value? = some text) :
    uriFrom value? none (segment :: segments) = .ok uri ↔
      ∃ rest, uriFrom value? none segments = .ok rest ∧ uri = "/" ++ text ++ rest := by
  rw [uriFrom_none_cons_of_text? h]
  cases uriFrom value? none segments <;> simp [Except.map, eq_comm]

/-- **A URI is built exactly if the segments with a text come first**, and it is written from their
texts. -/
theorem uriFrom_none_eq_ok_iff :
    uriFrom value? none segments = .ok uri ↔
      WrittenFirst value? segments ∧
        uri = Path.ofTexts ((written value? segments).map Prod.snd) := by
  induction segments generalizing uri with
  | nil => simp [uriFrom, WrittenFirst, written, Path.ofTexts, eq_comm]
  | cons segment segments ih =>
    cases htext : segment.text? value? with
    | some text =>
      rw [uriFrom_cons_eq_ok_iff htext, written_cons_of_some htext, writtenFirst_cons_of_some htext,
        List.map_cons, Path.ofTexts_cons]
      constructor
      · rintro ⟨rest, hrest, rfl⟩
        obtain ⟨hfirst, rfl⟩ := ih.mp hrest
        exact ⟨hfirst, rfl⟩
      · rintro ⟨hfirst, rfl⟩
        exact ⟨_, ih.mpr ⟨hfirst, rfl⟩, rfl⟩
    | none =>
      rw [writtenFirst_cons_of_none htext, List.forall_mem_cons]
      obtain ⟨p, hmissing⟩ := Segment.text?_eq_none_iff.mp htext
      rw [uriFrom_cons_of_missing? hmissing]
      by_cases hopt : p.isOptional = true
      · have homitted : segment.IsOmitted value? := Segment.isOmitted_iff.mpr ⟨p, hmissing, hopt⟩
        rw [if_pos hopt, Option.none_or, uriFrom_some_eq_ok_iff, and_iff_right homitted]
        refine and_congr_right fun hall => ?_
        rw [written_cons_of_none htext, written_of_forall_isOmitted hall]
        rfl
      · have hkept : ¬ segment.IsOmitted value? := by
          simp [Segment.isOmitted_iff, hmissing, hopt]
        simp [if_neg hopt, hkept]

/-! ## The URI of a compiled pattern -/

theorem compile_slash : Segment.compile "/" = [] := by
  decide +kernel

/-- The URI of a compiled pattern depends on its text only through the segments, except that the
text is named in an error. -/
theorem uriWith_compile (text : String) (value? : String → Option String) :
    (compile text).uriWith value? =
      match uriFrom value? none (Segment.compile text) with
      | .ok uri => .ok (if uri = "" then "/" else uri)
      | .error name => .error (.unresolvedPlaceholder text name) := by
  by_cases hroot : text = "/"
  · rw [hroot, compile_slash]
    rfl
  · exact if_neg (by simpa [isRoot, compile] using hroot)

/-- The URI of a compiled pattern is `/` where nothing is written. -/
theorem uriWith_compile_eq_ok_iff {text : String} :
    (compile text).uriWith value? = .ok uri ↔
      WrittenFirst value? (Segment.compile text) ∧
        uri = if written value? (Segment.compile text) = [] then "/"
          else Path.ofTexts ((written value? (Segment.compile text)).map Prod.snd) := by
  have hempty : Path.ofTexts ((written value? (Segment.compile text)).map Prod.snd) = "" ↔
      written value? (Segment.compile text) = [] := by
    rw [Path.ofTexts_eq_empty_iff, List.map_eq_nil_iff]
  rw [uriWith_compile]
  cases hfrom : uriFrom value? none (Segment.compile text) with
  | ok path =>
    obtain ⟨hfirst, rfl⟩ := uriFrom_none_eq_ok_iff.mp hfrom
    simp only [hempty, hfirst, true_and, Except.ok.injEq]
    exact eq_comm
  | error name =>
    have : ¬ WrittenFirst value? (Segment.compile text) := fun hfirst => by
      simp [uriFrom_none_eq_ok_iff.mpr ⟨hfirst, rfl⟩] at hfrom
    simp [this]

/-- The pieces of the URI of a compiled pattern are the texts that are not empty. -/
theorem pieces_of_uriWith_compile {text : String} (h : (compile text).uriWith value? = .ok uri)
    (hslash : ∀ x ∈ written value? (Segment.compile text), '/' ∉ x.2.toList) :
    Path.pieces uri = ((written value? (Segment.compile text)).map Prod.snd).filter (· ≠ "") := by
  obtain ⟨-, rfl⟩ := uriWith_compile_eq_ok_iff.mp h
  split
  case isTrue hnil => rw [hnil]; decide +kernel
  case isFalse => exact Path.pieces_ofTexts (List.forall_mem_map.mpr hslash)

theorem ne_empty_of_uriWith_compile {text : String} (h : (compile text).uriWith value? = .ok uri) :
    uri ≠ "" := by
  obtain ⟨-, rfl⟩ := uriWith_compile_eq_ok_iff.mp h
  split
  case isTrue => decide
  case isFalse hne =>
    rw [ne_eq, Path.ofTexts_eq_empty_iff, List.map_eq_nil_iff]
    exact hne

end Pattern

end PathRouting
