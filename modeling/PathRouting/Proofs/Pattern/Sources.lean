import Mathlib.Data.List.Induction
import PathRouting.Pattern.Uri
import PathRouting.Proofs.Lookup
import PathRouting.Proofs.Pattern.Positions

/-!
# Sources of values

A URI depends on its source of values only through the values of the names of placeholders
(`uri_congr`). So all that counts is which value a source gives to a name that it holds more than
once. A list, an array and a vector give the first one. A map that was filled pair by pair gives the
last one, as the list from behind does (`Arguments.value?_foldl`), and captures give the first one,
as the list of their pairs does (`Arguments.value?_of_isGiven`).
-/

namespace PathRouting

namespace Arguments

variable {pairs : List (String × String)}

/-! ## Filled maps -/

/-- The hash map that is filled with pairs in order. -/
def hashMap (pairs : List (String × String)) : Std.HashMap String String :=
  pairs.foldl (fun map pair => map.insert pair.1 pair.2) ∅

/-- The tree map that is filled with pairs in order. -/
def treeMap (pairs : List (String × String)) : Std.TreeMap String String :=
  pairs.foldl (fun map pair => map.insert pair.1 pair.2) ∅

/-- A source that is filled pair by pair, where a pair takes the place of an earlier one of its
name, gives the last value of each name. -/
theorem value?_foldl {α : Type u} [Arguments α] {put : α → String × String → α} {empty : α}
    (hempty : ∀ name, value? empty name = none)
    (hput : ∀ args pair name,
      value? (put args pair) name = if pair.1 = name then some pair.2 else value? args name)
    (pairs : List (String × String)) (name : String) :
    value? (pairs.foldl put empty) name = value? pairs.reverse name := by
  induction pairs using List.reverseRecOn with
  | nil => exact hempty name
  | append_singleton pairs pair ih =>
    have hlast : value? (pairs ++ [pair]).reverse name =
        if pair.1 = name then some pair.2 else value? pairs.reverse name := by
      by_cases hname : pair.1 = name <;> simp [value?, hname]
    rw [List.foldl_concat, hput, ih, hlast]

theorem value?_hashMap (pairs : List (String × String)) (name : String) :
    value? (hashMap pairs) name = value? pairs.reverse name := by
  refine value?_foldl (fun _ => Std.HashMap.getElem?_empty) (fun map pair name => ?_) pairs name
  show (map.insert pair.1 pair.2)[name]? = if pair.1 = name then some pair.2 else map[name]?
  rw [Std.HashMap.getElem?_insert]
  simp only [beq_iff_eq]

theorem value?_treeMap (pairs : List (String × String)) (name : String) :
    value? (treeMap pairs) name = value? pairs.reverse name := by
  refine value?_foldl (fun _ => Std.TreeMap.getElem?_emptyc) (fun map pair name => ?_) pairs name
  show (map.insert pair.1 pair.2)[name]? = if pair.1 = name then some pair.2 else map[name]?
  rw [Std.TreeMap.getElem?_insert]
  simp only [Std.LawfulEqCmp.compare_eq_iff_eq]

/-! ## Lists in either order -/

theorem value?_toArray (pairs : List (String × String)) (name : String) :
    value? pairs.toArray name = value? pairs name :=
  congrArg (Option.map Prod.snd) (List.find?_toArray _ pairs)

/-- Where names are distinct, the order of the pairs does not count. -/
theorem value?_reverse (hnodup : (pairs.map Prod.fst).Nodup) (name : String) :
    value? pairs.reverse name = value? pairs name :=
  congrArg (Option.map Prod.snd) (find?_key_reverse hnodup name)

end Arguments

/-! ## Captures -/

/-- The captures that are given to anyone are the empty ones and those of a match. -/
def Captures.IsGiven (captures : Captures) : Prop :=
  captures = .empty ∨ ∃ (pattern : Pattern) (path : String), pattern.find? path = some captures

theorem Captures.IsGiven.exists_ofSpans {captures : Captures} (h : captures.IsGiven) :
    ∃ path spans, captures = .ofSpans path spans := by
  rcases h with rfl | ⟨pattern, path, hfind⟩
  · exact ⟨"", [], rfl⟩
  · rw [Pattern.find?] at hfind
    split at hfind
    case isTrue => exact ⟨"", [], (Option.some.inj hfind).symm⟩
    case isFalse =>
      obtain ⟨spans, -, rfl⟩ := Option.map_eq_some_iff.mp hfind
      exact ⟨_, spans, rfl⟩

/-- Captures give the values of their pairs, the first one of each name. -/
theorem Arguments.value?_of_isGiven {captures : Captures} (h : captures.IsGiven) (name : String) :
    value? captures name = value? captures.toList name := by
  obtain ⟨path, spans, rfl⟩ := h.exists_ofSpans
  exact Captures.get?_ofSpans path spans name

/-! ## Values of placeholders -/

variable {value? value'? : String → Option String}

theorem Segment.contribution_congr {segment : Segment}
    (h : ∀ p, segment.placeholder? = some p → value? p.name = value'? p.name) :
    segment.contribution value? = segment.contribution value'? := by
  cases segment with
  | literal text => rfl
  | placeholder p => rw [contribution, contribution, h p rfl]

namespace Pattern

theorem uriFrom_congr {segments : List Segment} {gap? : Option String}
    (h : ∀ p ∈ segments.filterMap Segment.placeholder?, value? p.name = value'? p.name) :
    uriFrom value? gap? segments = uriFrom value'? gap? segments := by
  induction segments generalizing gap? with
  | nil => rfl
  | cons segment segments ih =>
    have hfirst : segment.contribution value? = segment.contribution value'? := by
      refine Segment.contribution_congr fun p hp => h p ?_
      exact List.mem_filterMap.mpr ⟨segment, List.mem_cons_self, hp⟩
    have hrest : ∀ p ∈ segments.filterMap Segment.placeholder?, value? p.name = value'? p.name := by
      intro p hp
      obtain ⟨other, hother, hplaceholder⟩ := List.mem_filterMap.mp hp
      exact h p (List.mem_filterMap.mpr ⟨other, List.mem_cons_of_mem segment hother, hplaceholder⟩)
    simp only [uriFrom, hfirst, ih hrest]

/-- **A URI depends on the values of the names of placeholders only.** -/
theorem uri_congr {α : Type u} {β : Type v} [Arguments α] [Arguments β] {pattern : Pattern}
    {args : α} {args' : β}
    (h : ∀ p ∈ pattern.placeholders, Arguments.value? args p.name = Arguments.value? args' p.name) :
    pattern.uri args = pattern.uri args' := by
  rw [uri, uri, uriWith, uriWith, uriFrom_congr h]

/-- **Sources of the same pairs build the same URI**, or fail with the same error: maps that were
filled with the pairs and the list of them from behind; a list, an array and a vector; all of these
if no name occurs twice; and captures and the array of their pairs. Whatever the sources are, only
the values of the names of placeholders count. -/
theorem uri_of_same_pairs (pattern : Pattern) :
    (∀ pairs : List (String × String),
      pattern.uri (Arguments.hashMap pairs) = pattern.uri pairs.reverse ∧
      pattern.uri (Arguments.treeMap pairs) = pattern.uri pairs.reverse ∧
      pattern.uri pairs.toArray = pattern.uri pairs ∧
      pattern.uri pairs.toArray.toVector = pattern.uri pairs ∧
      ((pairs.map Prod.fst).Nodup → pattern.uri pairs.reverse = pattern.uri pairs)) ∧
    (∀ captures : Captures, captures.IsGiven →
      pattern.uri captures = pattern.uri captures.toList.toArray) ∧
    ∀ {α : Type u} {β : Type v} [Arguments α] [Arguments β] (args : α) (args' : β),
      (∀ p ∈ pattern.placeholders,
        Arguments.value? args p.name = Arguments.value? args' p.name) →
      pattern.uri args = pattern.uri args' := by
  have harray (pairs : List (String × String)) : pattern.uri pairs.toArray = pattern.uri pairs :=
    uri_congr fun p _ => Arguments.value?_toArray pairs p.name
  refine ⟨fun pairs => ⟨?_, ?_, harray pairs, ?_, fun hnodup => ?_⟩, fun captures hgiven => ?_,
    fun args args' => uri_congr⟩
  · exact uri_congr fun p _ => Arguments.value?_hashMap pairs p.name
  · exact uri_congr fun p _ => Arguments.value?_treeMap pairs p.name
  · exact uri_congr fun p _ => Arguments.value?_toArray pairs p.name
  · exact uri_congr fun p _ => Arguments.value?_reverse hnodup p.name
  · rw [harray]
    exact uri_congr fun p _ => Arguments.value?_of_isGiven hgiven p.name

/-- A name that no placeholder has does not count, nor does the order of distinct names. -/
theorem uri_of_same_pairs_of_two_names :
    let pattern := compile "/x/{a}/{b?:int}"
    ([("a", "1"), ("b", "2")].map Prod.fst).Nodup ∧
      pattern.uri [("b", "2"), ("a", "1")] = pattern.uri [("a", "1"), ("b", "2")] ∧
      pattern.uri [("c", "3"), ("a", "1")] = pattern.uri [("a", "1")] ∧
      ∃ captures, pattern.find? "x/1/y" = some captures ∧
        pattern.uri captures = pattern.uri captures.toList.toArray := by
  intro pattern
  have hnodup : ([("a", "1"), ("b", "2")].map Prod.fst).Nodup := by decide
  have hfind : pattern.find? "x/1/y" = some ⟨some "x/1/y", [⟨"a", 2, 3⟩]⟩ := by decide +kernel
  have hplaceholders : pattern.placeholders = [⟨"a", .untyped, false⟩, ⟨"b", .int, true⟩] := by
    decide +kernel
  obtain ⟨hpairs, hcaptures, hcongr⟩ := uri_of_same_pairs pattern
  obtain ⟨-, -, -, -, hreverse⟩ := hpairs [("a", "1"), ("b", "2")]
  refine ⟨hnodup, hreverse hnodup, hcongr _ _ ?_, _, hfind, hcaptures _ (.inr ⟨_, _, hfind⟩)⟩
  rw [hplaceholders]
  decide

end Pattern

end PathRouting
