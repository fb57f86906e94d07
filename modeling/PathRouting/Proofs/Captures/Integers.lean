import PathRouting.Proofs.Captures.Slices
import PathRouting.Proofs.Value.Digits

/-!
# Integers among captured values

A value comes from the placeholder whose place it stands at (`Pattern.origins`). If the first value
of a name comes from a placeholder for integers, it holds digits only, so that reading it as an
integer gives their number, or says that the number is too large
(`Pattern.read?_of_int_placeholder`).
-/

namespace PathRouting

namespace Segment

/-- The placeholder that captures where a text stands, with the text. -/
def origin? (segment : Segment) (part : String) : Option (Placeholder × String) :=
  segment.placeholder?.bind fun p => (segment.capture? part).map fun _ => (p, part)

theorem origin?_eq_some_iff {segment : Segment} {part value : String} {p : Placeholder} :
    segment.origin? part = some (p, value) ↔
      segment = .placeholder p ∧ segment.capture? part = some (p.name, value) := by
  constructor
  · intro h
    obtain ⟨q, hq, horigin⟩ := Option.bind_eq_some_iff.mp h
    obtain ⟨pair, hpair, heq⟩ := Option.map_eq_some_iff.mp horigin
    obtain ⟨rfl, rfl⟩ := Prod.mk.inj heq
    cases segment with
    | literal text => cases hq
    | placeholder r =>
      obtain rfl : r = q := Option.some.inj hq
      obtain ⟨_, hr, -, -, -, rfl⟩ := capture?_eq_some_iff.mp hpair
      cases hr
      exact ⟨rfl, hpair⟩
  · rintro ⟨rfl, hcapture⟩
    obtain ⟨_, -, -, -, -, hpair⟩ := capture?_eq_some_iff.mp hcapture
    rw [origin?, placeholder?, Option.bind_some, hcapture, Option.map_some, (Prod.mk.inj hpair).2]

/-- A captured value goes by the name of its placeholder. -/
theorem map_origin? (segment : Segment) (part : String) :
    (segment.origin? part).map (fun origin => (origin.1.name, origin.2)) =
      segment.capture? part := by
  cases hcapture : segment.capture? part with
  | none => simp [origin?, hcapture]
  | some pair =>
    obtain ⟨p, hsegment, -, -, -, rfl⟩ := capture?_eq_some_iff.mp hcapture
    rw [origin?_eq_some_iff.mpr ⟨hsegment, hcapture⟩, Option.map_some]

end Segment

namespace Pattern

/-- The placeholders that capture in a path, in order, with the texts at their places. -/
def origins (pattern : Pattern) (path : String) : List (Placeholder × String) :=
  if Path.normalize path = pattern.normalized then []
  else
    (placed pattern.segments (Path.texts (Path.normalize path))).filterMap fun x => x.1.origin? x.2

theorem accepts_of_mem_origins {pattern : Pattern} {path value : String} {p : Placeholder}
    (h : (p, value) ∈ pattern.origins path) : p.valueType.accepts value = true := by
  rw [origins] at h
  split at h
  case isTrue => cases h
  case isFalse =>
    obtain ⟨x, -, hx⟩ := List.mem_filterMap.mp h
    obtain ⟨hsegment, hcapture⟩ := Segment.origin?_eq_some_iff.mp hx
    obtain ⟨q, hq, -, haccepts, -, heq⟩ := Segment.capture?_eq_some_iff.mp hcapture
    obtain rfl : p = q := Segment.placeholder.inj (hsegment.symm.trans hq)
    rwa [(Prod.mk.inj heq).2]

variable {text path name value : String} {captures : Captures} {p : Placeholder}

/-- What a match captures are the texts at the places of the placeholders that capture. -/
theorem toList_eq_map_origins (hfind : (compile text).find? path = some captures) :
    captures.toList =
      ((compile text).origins path).map fun origin => (origin.1.name, origin.2) := by
  by_cases hnormal : Path.normalize path = (compile text).normalized
  · rw [find?_of_normalize_eq hnormal, Option.some.injEq] at hfind
    rw [origins, if_pos hnormal, ← hfind]
    rfl
  · rw [toList_of_find? (empty_literal_notMem_compile text) hnormal hfind, origins, if_neg hnormal,
      List.map_filterMap]
    simp only [Segment.map_origin?]

/-- A name is looked up among the placeholders that capture. -/
theorem get?_eq_of_find?_origins (hfind : (compile text).find? path = some captures)
    (hfirst : ((compile text).origins path).find? (·.1.name = name) = some (p, value)) :
    captures.get? name = some value := by
  have hpairs := toList_eq_map_origins hfind
  obtain ⟨spans, rfl, -⟩ := exists_laidOut_of_find? hfind
  rw [Captures.get?_ofSpans, hpairs, List.find?_map, Option.map_map]
  show Option.map _ (((compile text).origins path).find? (·.1.name = name)) = some value
  rw [hfirst]
  rfl

/-- **The first value of a name, if it comes from a placeholder for integers, is read as the number
that its digits denote**, however many there are, unless the number is too large. -/
theorem read?_of_int_placeholder (hfind : (compile text).find? path = some captures)
    (hfirst : ((compile text).origins path).find? (·.1.name = name) = some (p, value))
    (hint : p.valueType = .int) :
    captures.toList = ((compile text).origins path).map (fun origin => (origin.1.name, origin.2)) ∧
    captures.get? name = some value ∧
    (value ≠ "" ∧ ∀ c ∈ value.toList, c.isDigit = true) ∧
    (∀ range ∈ [IntegerRange.uint8, IntegerRange.uint32, IntegerRange.int64],
      captures.read? (readInteger range) name =
        some (if (Decimal.value value.toList : Int) ≤ range.greatest then
          .ok (Decimal.value value.toList : Int) else .error .tooLarge)) ∧
    IntegerError.tooLarge.message = "number too large to fit in target type" := by
  have haccepts := accepts_of_mem_origins (List.mem_of_find?_eq_some hfirst)
  rw [hint, ValueType.accepts_int_iff] at haccepts
  obtain ⟨hne, hdigits⟩ := haccepts
  have hget := get?_eq_of_find?_origins hfind hfirst
  refine ⟨toList_eq_map_origins hfind, hget, ⟨hne, hdigits⟩, fun range hrange => ?_, rfl⟩
  have hbounds : range.least ≤ 0 ∧ 0 ≤ range.greatest := by
    have hall : ∀ range ∈ [IntegerRange.uint8, IntegerRange.uint32, IntegerRange.int64],
        range.least ≤ 0 ∧ 0 ≤ range.greatest := by decide
    exact hall range hrange
  rw [Captures.read?, hget, Option.map_some, readInteger_eq hbounds.1 hbounds.2 hne hdigits]

/-- Zeros in front count for nothing, and 256 is too large for eight bits only. The second value of
the name is no integer. -/
theorem read?_of_int_placeholder_of_leading_zeros :
    ∃ captures,
      (compile "/{id:int}/{id}").find? "/00000000000000000000256/x" = some captures ∧
      captures.toList = [("id", "00000000000000000000256"), ("id", "x")] ∧
      captures.read? (readInteger .uint8) "id" = some (.error .tooLarge) ∧
      captures.read? (readInteger .uint32) "id" = some (.ok 256) := by
  have hmatch : ((compile "/{id:int}/{id}").find? "/00000000000000000000256/x").isSome := by
    decide +kernel
  obtain ⟨captures, hfind⟩ := Option.isSome_iff_exists.mp hmatch
  have hfirst : ((compile "/{id:int}/{id}").origins "/00000000000000000000256/x").find?
      (·.1.name = "id") = some (⟨"id", .int, false⟩, "00000000000000000000256") := by
    decide +kernel
  obtain ⟨hpairs, -, -, hread, -⟩ := read?_of_int_placeholder hfind hfirst rfl
  refine ⟨captures, hfind, hpairs.trans (by decide +kernel), ?_, ?_⟩
  · exact (hread .uint8 (by simp)).trans (by decide +kernel)
  · exact (hread .uint32 (by simp)).trans (by decide +kernel)

end Pattern

end PathRouting
