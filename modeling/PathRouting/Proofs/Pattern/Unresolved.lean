import Mathlib.Data.List.Basic
import PathRouting.Proofs.Pattern.Written

/-!
# Which placeholder is unresolved

What becomes of a URI depends on the first placeholder that has no value
(`uri_eq_of_first_missing`).

* Without one, all segments are written.
* A required one is unresolved itself.
* An optional one opens a gap. Further placeholders may be left out behind it
  (`uriFrom_some_eq`), and if nothing else follows, the segments before the gap are written.
  Otherwise the first segment that may not be left out decides: a placeholder that has no value
  either is unresolved itself, and any other segment leaves the placeholder of the gap unresolved.

So a text is only ever written at the place of its segment.
-/

namespace PathRouting

namespace Pattern

variable {value? : String → Option String} {segment : Segment} {before segments : List Segment}

/-! ## The first placeholder without a value -/

/-- The texts of segments that all have one are written before what follows them. -/
theorem uriFrom_append (h : ∀ segment ∈ before, segment.missing? value? = none)
    (later : List Segment) :
    uriFrom value? none (before ++ later) =
      (uriFrom value? none later).map
        (Path.ofTexts (before.filterMap (·.text? value?)) ++ ·) := by
  induction before with
  | nil =>
    show uriFrom value? none later = _
    cases uriFrom value? none later <;> simp [Except.map, Path.ofTexts]
  | cons segment before ih =>
    obtain ⟨text, htext⟩ := Segment.missing?_eq_none_iff.mp (h segment (by simp))
    have hrest := ih fun other hother => h other (by simp [hother])
    rw [List.cons_append, uriFrom_none_cons_of_text? htext, hrest]
    simp only [List.filterMap_cons, htext, Path.ofTexts_cons]
    cases uriFrom value? none later <;> simp [Except.map, String.append_assoc]

theorem uriFrom_of_forall_missing?_eq_none
    (h : ∀ segment ∈ segments, segment.missing? value? = none) :
    uriFrom value? none segments = .ok (Path.ofTexts (segments.filterMap (·.text? value?))) := by
  have happend := uriFrom_append h []
  rw [List.append_nil] at happend
  rw [happend]
  simp [uriFrom, Except.map]

/-- A required placeholder is unresolved itself, and an optional one leaves the decision to what
follows it. -/
theorem uriFrom_append_cons (h : ∀ segment ∈ before, segment.missing? value? = none)
    {first : Placeholder} (hfirst : segment.missing? value? = some first) (later : List Segment) :
    uriFrom value? none (before ++ segment :: later) =
      if first.isOptional = false then .error first.name
      else
        match later.find? fun segment => ¬ segment.IsOmitted value? with
        | none => .ok (Path.ofTexts (before.filterMap (·.text? value?)))
        | some next => .error ((next.missing? value?).getD first).name := by
  rw [uriFrom_append h, uriFrom_cons_of_missing? hfirst]
  by_cases hopt : first.isOptional = true
  · rw [if_pos hopt, if_neg (by simp [hopt]), Option.none_or, uriFrom_some_eq]
    cases later.find? fun segment => ¬ segment.IsOmitted value? with
    | none => simp [Except.map]
    | some next => cases hnext : next.missing? value? <;> simp [Except.map, hnext]
  · rw [if_neg hopt, if_pos (by simpa using hopt)]
    rfl

/-- The place of the first placeholder without a value, or the number of segments if there is
none. -/
def missingPlace (value? : String → Option String) (segments : List Segment) : Nat :=
  segments.findIdx fun segment => (segment.missing? value?).isSome

theorem exists_eq_take_append_cons {first : Placeholder}
    (hfirst : segments.findSome? (·.missing? value?) = some first) :
    ∃ segment, segment.missing? value? = some first ∧
      segments = segments.take (missingPlace value? segments) ++
        segment :: segments.drop (missingPlace value? segments + 1) ∧
      ∀ other ∈ segments.take (missingPlace value? segments), other.missing? value? = none := by
  obtain ⟨before, segment, later, rfl, hmissing, hbefore⟩ :=
    List.findSome?_eq_some_iff.mp hfirst
  have hplace : missingPlace value? (before ++ segment :: later) = before.length := by
    rw [missingPlace, List.findIdx_append, List.findIdx_eq_length.mpr (by simpa using hbefore)]
    simp [List.findIdx_cons, hmissing]
  have hdrop : (before ++ segment :: later).drop (before.length + 1) = later := by
    simp [List.drop_append]
  rw [hplace, List.take_left, hdrop]
  exact ⟨segment, hmissing, rfl, hbefore⟩

/-- The URI of segments that all have a text: each text behind a slash, and `/` if there are no
segments. -/
def uriOf (value? : String → Option String) (segments : List Segment) : String :=
  if segments = [] then "/" else Path.ofTexts (segments.filterMap (·.text? value?))

theorem filterMap_text?_eq_nil_iff (h : ∀ segment ∈ segments, segment.missing? value? = none) :
    segments.filterMap (·.text? value?) = [] ↔ segments = [] := by
  rw [List.filterMap_eq_nil_iff]
  constructor
  · intro hnone
    refine List.eq_nil_iff_forall_not_mem.mpr fun segment hmem => ?_
    obtain ⟨text, htext⟩ := Segment.missing?_eq_none_iff.mp (h segment hmem)
    rw [hnone segment hmem] at htext
    cases htext
  · rintro rfl
    simp

theorem ite_ofTexts_eq_uriOf (h : ∀ segment ∈ segments, segment.missing? value? = none) :
    (if Path.ofTexts (segments.filterMap (·.text? value?)) = "" then "/"
      else Path.ofTexts (segments.filterMap (·.text? value?))) = uriOf value? segments := by
  simp only [uriOf, Path.ofTexts_eq_empty_iff, filterMap_text?_eq_nil_iff h]

/-- The texts that are written first are those of the first segments, in order. -/
theorem WrittenFirst.map_some_isPrefix (h : WrittenFirst value? segments) :
    ((written value? segments).map Prod.snd).map some <+: segments.map (·.text? value?) := by
  obtain ⟨omitted, hsplit, -⟩ := h
  refine ⟨omitted.map (·.text? value?), ?_⟩
  conv => rhs; rw [hsplit]
  rw [List.map_append, List.map_map, List.map_map, List.append_left_inj]
  exact List.map_congr_left fun x hx => (mem_written.mp hx).2.symm

/-- **The first placeholder without a value decides what becomes of a URI**, together with the first
segment behind it that may not be left out. The texts of a URI are those of the first segments, each
at the place of its segment. -/
theorem uri_eq_of_first_missing {α : Type u} [Arguments α] (text : String) (args : α) :
    let value? := Arguments.value? args
    let segments := (compile text).segments
    let place := missingPlace value? segments
    ((compile text).uri args =
      match segments.findSome? (·.missing? value?) with
      | none => .ok (uriOf value? segments)
      | some first =>
        if first.isOptional = false then .error (.unresolvedPlaceholder text first.name)
        else
          match (segments.drop (place + 1)).find? fun segment => ¬ segment.IsOmitted value? with
          | none => .ok (uriOf value? (segments.take place))
          | some next =>
            .error (.unresolvedPlaceholder text ((next.missing? value?).getD first).name)) ∧
    ∀ uri, (compile text).uri args = .ok uri →
      ∃ texts : List String, uri = (if texts = [] then "/" else Path.ofTexts texts) ∧
        texts.map some <+: segments.map (·.text? value?) := by
  intro value? segments place
  have huri : (compile text).uri args = (compile text).uriWith value? := rfl
  have hsegments : Segment.compile text = segments := rfl
  rw [huri]
  constructor
  · rw [uriWith_compile, hsegments]
    cases hfirst : segments.findSome? (·.missing? value?) with
    | none =>
      have hall := List.findSome?_eq_none_iff.mp hfirst
      simp only [uriFrom_of_forall_missing?_eq_none hall, ite_ofTexts_eq_uriOf hall]
    | some first =>
      obtain ⟨segment, hmissing, hsplit, hbefore⟩ := exists_eq_take_append_cons hfirst
      have hfrom := uriFrom_append_cons hbefore hmissing (segments.drop (place + 1))
      rw [← hsplit] at hfrom
      rw [hfrom]
      by_cases hopt : first.isOptional = false
      · simp only [if_pos hopt]
      · simp only [if_neg hopt]
        cases (segments.drop (place + 1)).find? fun segment => ¬ segment.IsOmitted value? with
        | none => simp only [ite_ofTexts_eq_uriOf hbefore, place]
        | some next => rfl
  · intro uri hok
    obtain ⟨hfirst, rfl⟩ := uriWith_compile_eq_ok_iff.mp hok
    rw [hsegments] at hfirst ⊢
    exact ⟨_, by simp only [List.map_eq_nil_iff], hfirst.map_some_isPrefix⟩

/-- Behind a gap a literal leaves the gap unresolved, and a required placeholder itself. -/
example :
    (compile "/x/{a?}/{b?}/y").uri ([] : List (String × String)) =
        .error (.unresolvedPlaceholder "/x/{a?}/{b?}/y" "a") ∧
      (compile "/x/{a?}/{b}/y").uri ([] : List (String × String)) =
        .error (.unresolvedPlaceholder "/x/{a?}/{b}/y" "b") := by
  decide +kernel

end Pattern

end PathRouting
