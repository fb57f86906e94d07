import Mathlib.Data.List.Infix
import PathRouting.Pattern.Match
import PathRouting.Proofs.Path.NormalForm

/-!
# Paths of the same request

Paths ask for the same if they have the same pieces, except that the empty path is told from the
paths of slashes only. These are the paths with the same normal form
(`normalize_eq_normalize_iff`), so that no pattern tells them apart
(`normalize_and_find?_of_pieces`).

The normal form is a path of the same request itself, and the only one without slashes at its ends
and without doubled ones (`normalize_normalize`, `not_isInfix_normalize`). A path without doubled
slashes is brought to it by trimming alone.
-/

namespace PathRouting

namespace Path

variable {path other : String}

/-! ## Doubled slashes -/

theorem hasDoubledSlash_iff {cs : List Char} :
    hasDoubledSlash cs = true ↔ ['/', '/'] <:+: cs := by
  induction cs with
  | nil => simp [hasDoubledSlash]
  | cons c cs ih =>
    rw [hasDoubledSlash, Bool.or_eq_true, ih, List.infix_cons_iff, List.cons_prefix_cons,
      List.singleton_prefix_iff_head?_eq_some, Bool.and_eq_true, beq_iff_eq, beq_iff_eq,
      eq_comm (a := c)]

theorem hasDoubledSlash_collapse (cs : List Char) : hasDoubledSlash (collapse cs) = false := by
  induction cs with
  | nil => rfl
  | cons c cs ih =>
    rw [collapse]
    split
    case isTrue => exact ih
    case isFalse h =>
      rw [hasDoubledSlash, head?_collapse, ih, Bool.or_false]
      simpa using h

theorem dropLeadingSlash_isSuffix (cs : List Char) : dropLeadingSlash cs <:+ cs := by
  unfold dropLeadingSlash
  split
  · exact List.suffix_cons _ _
  · exact List.suffix_rfl

theorem dropTrailingSlash_isPrefix (cs : List Char) : dropTrailingSlash cs <+: cs := by
  unfold dropTrailingSlash
  split
  · exact List.dropLast_prefix cs
  · exact List.prefix_rfl

theorem trim_isInfix (cs : List Char) : trim cs <:+: cs := by
  unfold trim
  split
  · exact List.infix_rfl
  · exact (dropTrailingSlash_isPrefix _).isInfix.trans (dropLeadingSlash_isSuffix cs).isInfix

theorem not_isInfix_normalize (path : String) : ¬ ['/', '/'] <:+: (normalize path).toList := by
  rw [normalize_eq_trim_collapse, String.toList_ofList]
  intro h
  have hcollapse := hasDoubledSlash_iff.mpr (h.trans (trim_isInfix _))
  rw [hasDoubledSlash_collapse] at hcollapse
  cases hcollapse

/-! ## Slashes at the ends -/

theorem ends_normalize (h : normalize path ≠ "/") :
    (normalize path).toList.head? ≠ some '/' ∧ (normalize path).toList.getLast? ≠ some '/' := by
  have hpieces : ¬ (path ≠ "" ∧ pieces path = []) := fun hslash =>
    h (normalize_eq_slash_iff.mpr hslash)
  have hs : ∀ word ∈ (pieces path).map String.toList, '/' ∉ word :=
    List.forall_mem_map.mpr fun _ => slash_notMem_of_mem_pieces
  have hw : ∀ word ∈ (pieces path).map String.toList, word ≠ [] :=
    List.forall_mem_map.mpr fun piece hpiece => by simpa using ne_empty_of_mem_pieces hpiece
  rw [normalize_eq, if_neg hpieces, String.toList_intercalate]
  exact ⟨Text.head?_intercalate_ne hs hw, Text.getLast?_intercalate_ne hs hw⟩

/-! ## Equal normal forms -/

/-- The pieces of a path with single slashes between them, or `/` if the path has slashes only. -/
def joined (path : String) : String :=
  if path ≠ "" ∧ path.toList.all (· == '/') then "/" else "/".intercalate (pieces path)

theorem normalize_eq_joined (path : String) : normalize path = joined path := by
  simp only [normalize_eq, pieces_eq_nil_iff, joined, List.all_eq_true, beq_iff_eq]

theorem normalize_eq_empty_iff : normalize path = "" ↔ path = "" := by
  constructor
  · intro h
    have hpieces : pieces path = [] := by
      rw [← pieces_normalize, h]
      rfl
    refine Classical.byContradiction fun hpath => ?_
    rw [normalize_eq_slash_iff.mpr ⟨hpath, hpieces⟩] at h
    exact absurd h (by decide)
  · rintro rfl
    rfl

/-- Two paths are the same request if they have the same pieces and are both empty or both not. In
the latter case both have a piece or both consist of slashes. -/
def SameRequest (path other : String) : Prop :=
  pieces path = pieces other ∧ (path = "" ↔ other = "")

/-- The normal form tells apart what is not the same request, and nothing else. -/
theorem normalize_eq_normalize_iff :
    normalize path = normalize other ↔ SameRequest path other := by
  constructor
  · intro h
    refine ⟨?_, ?_⟩
    · rw [← pieces_normalize path, h, pieces_normalize]
    · rw [← normalize_eq_empty_iff, h, normalize_eq_empty_iff]
  · rintro ⟨hpieces, hempty⟩
    simp only [normalize_eq, hpieces, ne_eq, hempty]

theorem sameRequest_normalize (path : String) : SameRequest (normalize path) path :=
  ⟨pieces_normalize path, normalize_eq_empty_iff⟩

theorem normalize_normalize (path : String) : normalize (normalize path) = normalize path :=
  normalize_eq_normalize_iff.mpr (sameRequest_normalize path)

end Path

namespace Pattern

theorem find?_congr {path other : String} (h : Path.normalize path = Path.normalize other)
    (pattern : Pattern) : pattern.find? path = pattern.find? other := by
  simp only [find?, h]

/-- **The normal form joins the pieces of a path with single slashes**, with or without collapsing
doubled slashes first where there are none. It is its own normal form, has no further slashes unless
it is `/`, and is all that a pattern sees of a path. -/
theorem normalize_and_find?_of_pieces (path : String) :
    Path.normalize path = Path.joined path ∧
      (¬ ['/', '/'] <:+: path.toList →
        String.ofList (Path.trim path.toList) = Path.joined path) ∧
      String.ofList (Path.trim (Path.collapse path.toList)) = Path.joined path ∧
      Path.normalize (Path.normalize path) = Path.normalize path ∧
      (Path.normalize path ≠ "/" →
        (Path.normalize path).toList.head? ≠ some '/' ∧
        (Path.normalize path).toList.getLast? ≠ some '/' ∧
        ¬ ['/', '/'] <:+: (Path.normalize path).toList) ∧
      ∀ other, Path.SameRequest path other → ∀ pattern : Pattern,
        pattern.find? path = pattern.find? other ∧
          pattern.isMatch path = pattern.isMatch other := by
  have hnormal : Path.normalize path = Path.joined path := Path.normalize_eq_joined path
  refine ⟨hnormal, fun h => ?_, ?_, Path.normalize_normalize path, fun h => ?_, ?_⟩
  · have hdoubled : Path.hasDoubledSlash path.toList = false :=
      Bool.eq_false_iff.mpr (mt Path.hasDoubledSlash_iff.mp h)
    rw [← hnormal, Path.normalize, if_neg (by simp [hdoubled])]
  · rw [← hnormal, Path.normalize_eq_trim_collapse]
  · obtain ⟨hhead, hlast⟩ := Path.ends_normalize h
    exact ⟨hhead, hlast, Path.not_isInfix_normalize path⟩
  · intro other hsame pattern
    have hfind : pattern.find? path = pattern.find? other :=
      find?_congr (Path.normalize_eq_normalize_iff.mpr hsame) pattern
    exact ⟨hfind, by rw [isMatch_eq_isSome_find?, isMatch_eq_isSome_find?, hfind]⟩

end Pattern

end PathRouting
