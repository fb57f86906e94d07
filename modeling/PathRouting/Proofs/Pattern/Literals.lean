import Mathlib.Data.Set.List
import PathRouting.Proofs.Pattern.Pieces

/-!
# Patterns without placeholders

A pattern without placeholders is a row of literals. Apart from the normal form of its own text, the
only normal form that matches it joins the literals with slashes (`find?_eq_of_literals`). Where the
text consists of URL characters and slashes these are the same. Any other character cuts a literal
or is dropped from it, so that a text such as `a%b` matches the path `a/b` as well
(`find?_of_placeholders_eq_nil`).
-/

namespace PathRouting

namespace Pattern

/-! ## Rows of literals -/

theorem exists_segments_eq_map_literal {pattern : Pattern} (h : pattern.placeholders = []) :
    ∃ words : List String, pattern.segments = words.map .literal := by
  rw [placeholders, List.filterMap_eq_nil_iff] at h
  have hrange : pattern.segments ∈ Set.range (List.map Segment.literal) := by
    rw [Set.range_list_map]
    intro segment hsegment
    cases segment with
    | literal word => exact ⟨word, rfl⟩
    | placeholder p => exact absurd (h _ hsegment) (Option.some_ne_none p)
  obtain ⟨words, hwords⟩ := hrange
  exact ⟨words, hwords.symm⟩

/-- Literals admit no texts but themselves, and leave no place empty. -/
theorem forall_admits_literals_iff {words : List String} (hw : ∀ word ∈ words, word ≠ "")
    (texts : List String) :
    (texts.length ≤ words.length ∧
        ∀ x ∈ placed (words.map .literal) texts, x.1.Admits x.2) ↔ texts = words := by
  induction words generalizing texts with
  | nil => simp [placed]
  | cons word words ih =>
    obtain ⟨hword, hwords⟩ := List.forall_mem_cons.mp hw
    cases texts with
    | nil =>
      have hfirst : (Segment.literal word, "") ∈ placed ((word :: words).map .literal) [] := by
        simp [placed, List.rightpad, List.replicate_succ]
      refine iff_of_false (fun h => hword (h.2 _ hfirst)) ?_
      exact List.cons_ne_nil _ _ ∘ Eq.symm
    | cons text texts =>
      have hplaced : placed ((word :: words).map .literal) (text :: texts) =
          (.literal word, text) :: placed (words.map .literal) texts := by
        simp [placed, List.rightpad]
      rw [hplaced, List.forall_mem_cons, List.length_cons, List.length_cons, List.cons.injEq,
        ← ih hwords, Nat.add_le_add_iff_right, and_left_comm]
      exact and_congr_left fun _ => eq_comm

/-- Literals capture nothing. -/
theorem capturesAlong_literals (words : List String) (path : String) :
    capturesAlong (words.map .literal) path = .empty := by
  have hnone : (placedParts path.utf8ByteSize (words.map .literal) (Path.parts path)).filterMap
      (fun x => x.1.span? x.2) = [] := by
    refine List.filterMap_eq_nil_iff.mpr fun x hx => ?_
    obtain ⟨word, -, hword⟩ := List.mem_map.mp (List.of_mem_zip hx).1
    rw [← hword]
    rfl
  rw [capturesAlong, hnone]
  rfl

theorem texts_eq_iff {words : List String} (hs : ∀ word ∈ words, '/' ∉ word.toList)
    (path : String) :
    Path.texts path = words ↔ words ≠ [] ∧ path = "/".intercalate words := by
  constructor
  · rintro rfl
    have hpos : 0 < (Path.texts path).length := by
      rw [Path.length_texts]
      exact Nat.succ_pos _
    exact ⟨List.length_pos_iff.mp hpos, (Path.intercalate_texts path).symm⟩
  · rintro ⟨hne, rfl⟩
    exact Path.texts_intercalate hs hne

variable {text : String} {words : List String}

theorem forall_mem_literals (h : (compile text).segments = words.map .literal) :
    ∀ word ∈ words, word ≠ "" ∧ ∀ c ∈ word.toList, isUrlChar c = true := by
  intro word hword
  have hmem : .literal word ∈ (compile text).segments := by
    rw [h]
    exact List.mem_map_of_mem hword
  exact literal_mem_compile hmem

theorem ne_empty_of_mem_literals (h : (compile text).segments = words.map .literal) :
    ∀ word ∈ words, word ≠ "" :=
  fun word hword => (forall_mem_literals h word hword).1

theorem slash_notMem_literals (h : (compile text).segments = words.map .literal) :
    ∀ word ∈ words, '/' ∉ word.toList :=
  fun word hword hslash => absurd ((forall_mem_literals h word hword).2 _ hslash) (by decide)

/-- **A row of literals matches what joins the literals with slashes**, besides the normal form of
its own text. -/
theorem find?_eq_of_literals (h : (compile text).segments = words.map .literal) (path : String) :
    (compile text).find? path =
      if Path.normalize path = Path.normalize text ∨
          words ≠ [] ∧ Path.normalize path = "/".intercalate words then some .empty
      else none := by
  have hlit : .literal "" ∉ (compile text).segments := empty_literal_notMem_compile text
  by_cases hnormal : Path.normalize path = Path.normalize text
  · rw [if_pos (.inl hnormal)]
    exact find?_of_normalize_eq hnormal
  · have hadmits := forall_admits_literals_iff
      (fun word hword => (forall_mem_literals h word hword).1) (Path.texts (Path.normalize path))
    have hlength : words.length = (compile text).segments.length := by rw [h, List.length_map]
    rw [texts_eq_iff (slash_notMem_literals h), hlength, ← h] at hadmits
    split
    case isTrue hjoined =>
      obtain ⟨hlen, hall⟩ := hadmits.mpr (hjoined.resolve_left hnormal)
      refine (find?_eq_some_iff hlit hnormal).mpr ⟨hlen, hall, ?_⟩
      rw [h, capturesAlong_literals]
    case isFalse hjoined =>
      refine Option.not_isSome_iff_eq_none.mp fun hsome => hjoined (.inr ?_)
      exact hadmits.mp ((isSome_find?_iff hlit hnormal).mp hsome)

/-! ## Texts of URL characters and slashes -/

/-- A piece of URL characters is a literal. -/
theorem compile_eq_literal {piece : String} (hne : piece ≠ "")
    (h : ∀ c ∈ piece.toList, isUrlChar c = true) : Segment.compile piece = [.literal piece] := by
  have hrun : runsFrom [] (piece.toList ++ []) =
      ⟨[], piece.toList, []⟩ :: runsFrom ([] ++ piece.toList) [] :=
    runsFrom_run rfl (mt String.toList_eq_nil_iff.mp hne) h (by simp)
  rw [List.append_nil] at hrun
  rw [compile_eq_map_segment, runs, hrun]
  simp [runsFrom, UrlRun.segment, UrlRun.kind]

theorem map_literal_injective : (List.map Segment.literal).Injective :=
  List.map_injective_iff.mpr fun _ _ => Segment.literal.inj

/-- The literals of a text are its pieces exactly if its characters are URL characters and
slashes. -/
theorem literals_eq_pieces_iff (h : (compile text).segments = words.map .literal) :
    words = Path.pieces text ↔ ∀ c ∈ text.toList, c = '/' ∨ isUrlChar c = true := by
  constructor
  · rintro rfl c hc
    by_cases hslash : c = '/'
    · exact .inl hslash
    · obtain ⟨piece, hpiece, hmem⟩ := Path.exists_mem_pieces_iff.mpr ⟨hc, hslash⟩
      exact .inr ((forall_mem_literals h piece hpiece).2 c hmem)
  · intro hurl
    have hpieces : (compile text).segments = (Path.pieces text).map .literal := by
      rw [List.map_eq_flatMap]
      refine (Segment.compile_eq_flatMap_pieces text).trans ?_
      refine List.flatMap_congr fun piece hpiece => ?_
      refine compile_eq_literal (Path.ne_empty_of_mem_pieces hpiece) fun c hc => ?_
      obtain ⟨hmem, hslash⟩ := Path.exists_mem_pieces_iff.mp ⟨piece, hpiece, hc⟩
      exact (hurl c hmem).resolve_left hslash
    exact map_literal_injective (h.symm.trans hpieces)

/-- What joins the literals is in normal form, and it is that of the text exactly if the literals
are the pieces. -/
theorem intercalate_literals_eq_normalize_iff (h : (compile text).segments = words.map .literal)
    (hne : words ≠ []) :
    "/".intercalate words = Path.normalize text ↔ words = Path.pieces text := by
  constructor
  · intro hjoined
    rw [← Path.pieces_intercalate (slash_notMem_literals h) (ne_empty_of_mem_literals h) hne,
      hjoined, Path.pieces_normalize]
  · intro hpieces
    rw [Path.normalize_eq, ← hpieces, if_neg fun hnil => hne hnil.2]

/-- **A pattern without placeholders matches the normal form of its text and what joins its literals
with slashes**, without captures. It matches the normal form alone exactly if it has no literals, or
no other characters than URL characters and slashes. -/
theorem find?_of_placeholders_eq_nil (h : (compile text).placeholders = []) :
    ∃ words : List String, (compile text).segments = words.map .literal ∧
      (∀ path, (compile text).find? path =
        if Path.normalize path = Path.normalize text ∨
            words ≠ [] ∧ Path.normalize path = "/".intercalate words then some .empty
        else none) ∧
      ((∀ path, ((compile text).find? path).isSome ↔
          Path.normalize path = Path.normalize text) ↔
        words = [] ∨ ∀ c ∈ text.toList, c = '/' ∨ isUrlChar c = true) := by
  obtain ⟨words, hwords⟩ := exists_segments_eq_map_literal h
  have hfind := find?_eq_of_literals hwords
  refine ⟨words, hwords, hfind, ?_⟩
  rw [← literals_eq_pieces_iff hwords]
  constructor
  · intro hall
    by_cases hne : words = []
    · exact .inl hne
    · -- the path that joins the literals tells whether they are the pieces
      have hs := slash_notMem_literals hwords
      have hjoined := Path.normalize_intercalate hs (ne_empty_of_mem_literals hwords) hne
      have hsome : ((compile text).find? ("/".intercalate words)).isSome := by
        rw [hfind, if_pos (.inr ⟨hne, hjoined⟩)]
        rfl
      refine .inr ((intercalate_literals_eq_normalize_iff hwords hne).mp ?_)
      rw [← hjoined]
      exact (hall _).mp hsome
  · intro hpieces path
    have hsame : Path.normalize path = Path.normalize text ∨
        words ≠ [] ∧ Path.normalize path = "/".intercalate words ↔
          Path.normalize path = Path.normalize text := by
      refine or_iff_left_of_imp fun ⟨hne, hjoined⟩ => hjoined.trans ?_
      exact (intercalate_literals_eq_normalize_iff hwords hne).mpr (hpieces.resolve_left hne)
    rw [hfind, if_congr hsame rfl rfl, Option.isSome_ite]

/-- A character that is dropped from the end of a literal. -/
theorem find?_of_dropped_character :
    (compile "/a%/b/").placeholders = [] ∧
      (compile "/a%/b/").segments = ["a", "b"].map .literal ∧
      (compile "/a%/b/").find? "a//b" = some .empty ∧
      ¬ ∀ path, ((compile "/a%/b/").find? path).isSome ↔
        Path.normalize path = Path.normalize "/a%/b/" := by
  have h : (compile "/a%/b/").placeholders = [] := by decide +kernel
  have hsegments : (compile "/a%/b/").segments = ["a", "b"].map .literal := by decide +kernel
  obtain ⟨words, hwords, hfind, hiff⟩ := find?_of_placeholders_eq_nil h
  obtain rfl : words = ["a", "b"] := map_literal_injective (hwords.symm.trans hsegments)
  refine ⟨h, hsegments, ?_, ?_⟩
  · rw [hfind, if_pos (by decide +kernel)]
  · rw [hiff]
    rintro (hnil | hurl)
    · exact List.cons_ne_nil _ _ hnil
    · exact absurd (hurl '%' (by simp)) (by decide)

/-- A character that cuts a literal like a slash: the path has another normal form than the
pattern. -/
theorem isSome_find?_of_cut_literal :
    (compile "a%b").placeholders = [] ∧
      ¬ (((compile "a%b").find? "a/b").isSome ↔
        Path.normalize "a/b" = Path.normalize "a%b") := by
  decide +kernel

end Pattern

end PathRouting
