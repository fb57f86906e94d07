import Mathlib.Algebra.Order.BigOperators.Group.List
import PathRouting.Proofs.Pattern.Positions
import PathRouting.Proofs.Pattern.Written

/-!
# A pattern piece by piece

A slash ends the run before it and opens nothing, so that a text compiles to the segments of its
pieces, one piece after another (`compile_eq_flatMap_pieces`). Two things follow.

* The slashes around the pieces of a pattern do not count: texts of the same normal form compile to
  the same segments, match the same paths and build the same URIs (`find?_and_uri_of_normalize_eq`).
* A path with more parts than the pattern has segments matches only as the text of the pattern
  itself (`find?_of_length_lt_partCount`). There is such a path only where a piece has no URL
  character, or where the pattern has no pieces at all.
-/

namespace PathRouting

namespace Pattern

/-! ## What stands before a run -/

/-- Two texts end alike if runs start behind the one where they start behind the other, and for
segments of the same kind. -/
structure EndAlike (before before' : List Char) : Prop where
  endsInUrlChar : endsInUrlChar before = endsInUrlChar before'
  brace : before.getLast? = some '{' ↔ before'.getLast? = some '{'

theorem endAlike_concat (before before' : List Char) (c : Char) :
    EndAlike (before ++ [c]) (before' ++ [c]) where
  endsInUrlChar := by rw [endsInUrlChar_concat, endsInUrlChar_concat]
  brace := by rw [List.getLast?_concat, List.getLast?_concat]

/-- A run is not opened by a slash, so that it may as well start the text. -/
theorem endAlike_slash (before : List Char) : EndAlike (before ++ ['/']) [] where
  endsInUrlChar := by
    rw [endsInUrlChar_concat]
    decide
  brace := by simp

/-- What stands before a run counts only by its end. -/
theorem EndAlike.map_segment_runsFrom {before before' : List Char} (h : EndAlike before before')
    (rest : List Char) :
    (runsFrom before rest).map UrlRun.segment = (runsFrom before' rest).map UrlRun.segment := by
  induction rest generalizing before before' with
  | nil => rfl
  | cons c cs ih =>
    have hrest := ih (endAlike_concat before before' c)
    rw [runsFrom, runsFrom, h.endsInUrlChar]
    split
    case isTrue =>
      rw [List.map_cons, List.map_cons, hrest]
      simp only [UrlRun.segment, UrlRun.kind, h.brace]
    case isFalse => exact hrest

theorem takeWhile_append_slash (word rest : List Char) :
    (word ++ '/' :: rest).takeWhile isUrlChar = word.takeWhile isUrlChar := by
  rw [List.takeWhile_append, List.takeWhile_cons_of_neg (by decide), List.append_nil]
  split
  case isTrue h => exact ((List.takeWhile_prefix _).eq_of_length h).symm
  case isFalse => rfl

/-- A slash ends the run before it, and the runs behind it are read as those of a text. -/
theorem map_segment_runsFrom_append_slash (before word rest : List Char) :
    (runsFrom before (word ++ '/' :: rest)).map UrlRun.segment =
      (runsFrom before word).map UrlRun.segment ++ (runs rest).map UrlRun.segment := by
  induction word generalizing before with
  | nil =>
    rw [List.nil_append, runsFrom_of_not_isUrlChar (by decide), runs,
      (endAlike_slash before).map_segment_runsFrom]
    rfl
  | cons c word ih =>
    have htake := takeWhile_append_slash (c :: word) rest
    rw [List.cons_append] at htake
    rw [List.cons_append, runsFrom, runsFrom]
    split
    case isTrue =>
      rw [List.map_cons, List.map_cons, ih, List.cons_append, htake]
      rfl
    case isFalse => exact ih _

theorem map_segment_runs_intercalate (words : List (List Char)) :
    (runs (['/'].intercalate words)).map UrlRun.segment =
      words.flatMap fun word => (runs word).map UrlRun.segment := by
  induction words with
  | nil => rfl
  | cons word words ih =>
    cases words with
    | nil => simp
    | cons next words =>
      rw [List.intercalate_cons_cons, List.append_assoc, List.singleton_append, runs,
        map_segment_runsFrom_append_slash, ih]
      rfl

end Pattern

namespace Segment

/-! ## Segments of the pieces -/

theorem compile_empty : compile "" = [] := by
  decide +kernel

/-- What joins texts with slashes compiles to their segments. -/
theorem compile_intercalate (words : List String) :
    compile ("/".intercalate words) = words.flatMap compile := by
  rw [Pattern.compile_eq_map_segment, String.toList_intercalate]
  refine (Pattern.map_segment_runs_intercalate _).trans ?_
  rw [List.flatMap_map]
  exact List.flatMap_congr fun word _ => (Pattern.compile_eq_map_segment word).symm

/-- **A text compiles to the segments of its pieces.** -/
theorem compile_eq_flatMap_pieces (text : String) :
    compile text = (Path.pieces text).flatMap compile := by
  have htexts : compile text = (Path.texts text).flatMap compile := by
    conv => lhs; rw [← Path.intercalate_texts text]
    exact compile_intercalate _
  rw [htexts, Path.pieces]
  induction Path.texts text with
  | nil => rfl
  | cons word words ih => by_cases h : word = "" <;> simp [h, compile_empty, ih]

theorem compile_normalize (text : String) : compile (Path.normalize text) = compile text := by
  rw [compile_eq_flatMap_pieces, Path.pieces_normalize, ← compile_eq_flatMap_pieces]

/-- No segment is written without a URL character. -/
theorem compile_eq_nil_iff {text : String} :
    compile text = [] ↔ ∀ c ∈ text.toList, Pattern.isUrlChar c = false := by
  rw [Pattern.compile_eq_map_segment, List.map_eq_nil_iff, Pattern.runs]
  exact Pattern.runsFrom_eq_nil_iff rfl

/-- Pieces with a URL character write a segment each. -/
theorem exists_mem_pieces_of_length_lt {text : String}
    (h : (compile text).length < (Path.pieces text).length) :
    ∃ piece ∈ Path.pieces text, ∀ c ∈ piece.toList, Pattern.isUrlChar c = false := by
  refine Classical.byContradiction fun hnone => Nat.not_le.mpr h ?_
  have hpos : ∀ n ∈ (Path.pieces text).map fun piece => (compile piece).length, 1 ≤ n := by
    refine List.forall_mem_map.mpr fun piece hpiece => List.length_pos_iff.mpr fun hnil => ?_
    exact hnone ⟨piece, hpiece, compile_eq_nil_iff.mp hnil⟩
  have hle := List.length_le_sum_of_one_le _ hpos
  rw [List.length_map] at hle
  rwa [compile_eq_flatMap_pieces, List.length_flatMap]

end Segment

namespace Pattern

variable {text text' : String}

/-! ## Slashes around the pieces -/

/-- **Slashes around the pieces of a pattern do not count.** Texts of the same normal form compile
to the same segments, match the same paths with the same captures, and build the same URIs, or fail
for the same placeholder. -/
theorem find?_and_uri_of_normalize_eq {α : Type u} [Arguments α]
    (h : Path.normalize text = Path.normalize text') (path : String) (args : α) :
    (compile text).segments = (compile text').segments ∧
      (compile text).isMatch path = (compile text').isMatch path ∧
      (compile text).find? path = (compile text').find? path ∧
      ((∃ uri, (compile text).uri args = .ok uri ∧ (compile text').uri args = .ok uri) ∨
        ∃ name, (compile text).uri args = .error (.unresolvedPlaceholder text name) ∧
          (compile text').uri args = .error (.unresolvedPlaceholder text' name)) := by
  have hnormalized : (compile text).normalized = (compile text').normalized := h
  have hcompile : Segment.compile text = Segment.compile text' := by
    rw [← Segment.compile_normalize text, h, Segment.compile_normalize]
  have hsegments : (compile text).segments = (compile text').segments := hcompile
  have hfind : (compile text).find? path = (compile text').find? path := by
    simp only [find?, hnormalized, hsegments]
  refine ⟨hsegments, ?_, hfind, ?_⟩
  · rw [isMatch_eq_isSome_find?, isMatch_eq_isSome_find?, hfind]
  · rw [uri, uri, uriWith_compile, uriWith_compile, hcompile]
    cases uriFrom (Arguments.value? args) none (Segment.compile text') with
    | ok uri => exact .inl ⟨_, rfl, rfl⟩
    | error name => exact .inr ⟨name, rfl, rfl⟩

/-- An error names the pattern as it was given. -/
theorem find?_and_uri_of_doubled_slashes :
    Path.normalize "//a///{b:int}/" = Path.normalize "a/{b:int}" ∧
      (compile "//a///{b:int}/").segments = (compile "a/{b:int}").segments ∧
      (compile "//a///{b:int}/").find? "/a/7" = (compile "a/{b:int}").find? "/a/7" ∧
      ∃ name, (compile "//a///{b:int}/").uri ([] : List (String × String)) =
          .error (.unresolvedPlaceholder "//a///{b:int}/" name) ∧
        (compile "a/{b:int}").uri ([] : List (String × String)) =
          .error (.unresolvedPlaceholder "a/{b:int}" name) := by
  have h : Path.normalize "//a///{b:int}/" = Path.normalize "a/{b:int}" := by
    decide +kernel
  obtain ⟨hsegments, -, hfind, huri⟩ :=
    find?_and_uri_of_normalize_eq h "/a/7" ([] : List (String × String))
  refine ⟨h, hsegments, hfind, huri.resolve_left ?_⟩
  rintro ⟨uri, huri, -⟩
  have herror : (compile "//a///{b:int}/").uri ([] : List (String × String)) =
      .error (.unresolvedPlaceholder "//a///{b:int}/" "b") := by decide +kernel
  rw [herror] at huri
  cases huri

/-! ## Longer paths -/

/-- **A path with more parts than segments matches only as the text of the pattern itself**, and
then without captures. There is such a path only if the pattern is empty, consists of slashes only,
or has more pieces than runs, of which one then has no URL character. -/
theorem find?_of_length_lt_partCount (text : String) :
    (∀ path, (compile text).segments.length < Path.partCount (Path.normalize path) →
      (compile text).find? path =
        if Path.normalize path = Path.normalize text then some .empty else none) ∧
    ((∃ path, (compile text).segments.length < Path.partCount (Path.normalize path) ∧
        Path.normalize path = Path.normalize text) ↔
      text = "" ∨ (∀ c ∈ text.toList, c = '/') ∨
        (runs text.toList).length < (Path.pieces text).length) ∧
    ((runs text.toList).length < (Path.pieces text).length →
      ∃ piece ∈ Path.pieces text, ∀ c ∈ piece.toList, isUrlChar c = false) := by
  have hlength : (runs text.toList).length = (Segment.compile text).length := by
    rw [compile_eq_map_segment, List.length_map]
  have hsegments : (compile text).segments = Segment.compile text := rfl
  rw [hlength, hsegments]
  refine ⟨fun path hlt => ?_, ?_, Segment.exists_mem_pieces_of_length_lt⟩
  · split
    case isTrue hnormal => exact find?_of_normalize_eq hnormal
    case isFalse hnormal =>
      rw [← Path.length_texts] at hlt
      exact find?_eq_none_of_length_lt (empty_literal_notMem_compile text) hnormal hlt
  · -- if there is such a path, the text is one
    have hself : (∃ path, (Segment.compile text).length < Path.partCount (Path.normalize path) ∧
        Path.normalize path = Path.normalize text) ↔
          (Segment.compile text).length < Path.partCount (Path.normalize text) :=
      ⟨fun ⟨_, hlt, hnormal⟩ => hnormal ▸ hlt, fun hlt => ⟨text, hlt, rfl⟩⟩
    rw [hself, ← Path.length_texts, Path.texts_normalize, ← Path.pieces_eq_nil_iff]
    by_cases hpieces : Path.pieces text = []
    · have hnil : Segment.compile text = [] := by
        rw [Segment.compile_eq_flatMap_pieces, hpieces]
        rfl
      rw [if_neg (by simp [hpieces]), hnil]
      refine iff_of_true ?_ (.inr (.inl hpieces))
      split <;> decide
    · have htext : text ≠ "" := fun e => hpieces (by rw [e]; decide +kernel)
      rw [if_pos hpieces, or_iff_right htext, or_iff_right hpieces]

/-- A piece without a URL character leaves a path with more parts than segments. -/
example : (compile "/a/%").segments = [.literal "a"] ∧
    (compile "/a/%").find? "a/%" = some .empty ∧ (compile "/a/%").find? "a/b" = none := by
  decide +kernel

end Pattern

end PathRouting
