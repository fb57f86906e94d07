import PathRouting.Proofs.Pattern.Positions
import PathRouting.Proofs.Pattern.Written

/-!
# Building and matching

A URI puts texts behind slashes in the order of the segments, and its normal form only drops empty
texts. If texts are without slashes and the empty ones come last, they are thus found again at the
places of their segments (`placed_of_uriWith`), and matching the URI captures what the segments
capture of them (`Fits.exists_find?`).

Two round trips follow. A URI that is built from the captures of a match has the same captures
(`find?_uri_of_find?`), and a URI that is built from values of the right types has these values
as its captures (`find?_uri_of_written`). The path `/` makes an exception: it has two texts, so that
a pattern with fewer segments does not match it.
-/

namespace PathRouting

theorem Segment.IsOmitted.admits {value? : String → Option String} {segment : Segment}
    (h : segment.IsOmitted value?) : segment.Admits "" := by
  obtain ⟨p, rfl, hopt, -⟩ := h
  exact .inr (.inl hopt)

theorem Segment.IsOmitted.capture?_eq_none {value? : String → Option String} {segment : Segment}
    (h : segment.IsOmitted value?) : segment.capture? "" = none := by
  obtain ⟨p, rfl, hopt, -⟩ := h
  simp [Segment.capture?, hopt]

namespace Pattern

variable {value? : String → Option String} {text uri : String}

/-! ## Texts that fit their segments -/

/-- Texts that are found again where they are written: without slashes, the empty ones last, and
each admitted by its segment. -/
structure Fits (texts : List (Segment × String)) : Prop where
  slash_notMem : ∀ x ∈ texts, '/' ∉ x.2.toList
  emptyLast : Path.EmptyLast (texts.map Prod.snd)
  admits : ∀ x ∈ texts, x.1.Admits x.2

theorem Fits.sublist {texts texts' : List (Segment × String)} (h : Fits texts)
    (hsub : texts'.Sublist texts) : Fits texts' where
  slash_notMem x hx := h.slash_notMem x (hsub.subset hx)
  emptyLast := List.Pairwise.sublist (hsub.map Prod.snd) h.emptyLast
  admits x hx := h.admits x (hsub.subset hx)

/-- Texts stand at the places of their segments, and further segments have empty places. -/
theorem zip_rightpad_map_snd (texts : List (Segment × String)) (omitted : List Segment) :
    (texts.map Prod.fst ++ omitted).zip
        ((texts.map Prod.snd).rightpad (texts.map Prod.fst ++ omitted).length "") =
      texts ++ omitted.map (·, "") := by
  have homitted : omitted.zip (List.replicate omitted.length "") = omitted.map (·, "") := by
    induction omitted with
    | nil => rfl
    | cons segment omitted ih => simpa [List.replicate_succ] using ih
  rw [List.rightpad, List.length_append, List.length_map, List.length_map, Nat.add_sub_cancel_left,
    List.zip_append (by simp), ← List.zip_of_prod (Eq.refl _) (Eq.refl _), homitted]

/-- The texts of a URI stand at the places of their segments, and the other places are empty. This
holds of the path `/` with two empty texts only if there are two places. -/
theorem placed_of_uriWith (huri : (compile text).uriWith value? = .ok uri)
    (hfits : Fits (written value? (Segment.compile text)))
    (hplaces : Path.normalize uri = "/" → 2 ≤ (Segment.compile text).length) :
    ∃ omitted : List Segment, (∀ segment ∈ omitted, segment.IsOmitted value?) ∧
      placed (Segment.compile text) (Path.texts (Path.normalize uri)) =
        written value? (Segment.compile text) ++ omitted.map (·, "") := by
  have hpieces := pieces_of_uriWith_compile huri hfits.slash_notMem
  have hne := ne_empty_of_uriWith_compile huri
  obtain ⟨omitted, hsegments, homitted⟩ := (uriWith_compile_eq_ok_iff.mp huri).1
  have hlen : ((written value? (Segment.compile text)).map Prod.snd).length ≤
      (Segment.compile text).length := by
    rw [List.length_map]
    exact length_written_le _ _
  have hpad : (Path.texts (Path.normalize uri)).rightpad (Segment.compile text).length "" =
      ((written value? (Segment.compile text)).map Prod.snd).rightpad
        (Segment.compile text).length "" := by
    rw [Path.rightpad_texts_normalize hne fun h =>
        hplaces (Path.normalize_eq_slash_iff.mpr ⟨hne, h⟩),
      hpieces, hfits.emptyLast.rightpad_filter hlen]
  refine ⟨omitted, homitted, ?_⟩
  rw [placed, hpad]
  generalize written value? (Segment.compile text) = texts at hsegments ⊢
  rw [hsegments]
  exact zip_rightpad_map_snd _ _

/-- A URI has no text without a place, with the same exception. -/
theorem length_texts_of_uriWith (huri : (compile text).uriWith value? = .ok uri)
    (hfits : Fits (written value? (Segment.compile text)))
    (hplaces : Path.normalize uri = "/" → 2 ≤ (Segment.compile text).length) :
    (Path.texts (Path.normalize uri)).length ≤ (Segment.compile text).length := by
  have hne := ne_empty_of_uriWith_compile huri
  rw [Path.texts_normalize]
  split
  case isTrue =>
    rw [pieces_of_uriWith_compile huri hfits.slash_notMem]
    refine Nat.le_trans (List.length_filter_le _ _) ?_
    rw [List.length_map]
    exact length_written_le _ _
  case isFalse hpieces =>
    exact hplaces (Path.normalize_eq_slash_iff.mpr ⟨hne, Classical.not_not.mp hpieces⟩)

/-- **Matching a URI captures what the segments capture of its texts.** -/
theorem Fits.exists_find? (hfits : Fits (written value? (Segment.compile text)))
    (huri : (compile text).uriWith value? = .ok uri)
    (hne : Path.normalize uri ≠ Path.normalize text)
    (hplaces : Path.normalize uri = "/" → 2 ≤ (Segment.compile text).length) :
    ∃ captures, (compile text).find? uri = some captures ∧
      captures.toList =
        (written value? (Segment.compile text)).filterMap fun x => x.1.capture? x.2 := by
  obtain ⟨omitted, homitted, hplaced⟩ := placed_of_uriWith huri hfits hplaces
  have hlit := empty_literal_notMem_compile text
  refine ⟨_, (find?_eq_some_iff hlit hne).mpr ⟨?_, ?_, rfl⟩, ?_⟩
  · exact length_texts_of_uriWith huri hfits hplaces
  · intro x hx
    rcases List.mem_append.mp (hplaced ▸ hx) with hx | hx
    · exact hfits.admits x hx
    · obtain ⟨segment, hmem, rfl⟩ := List.mem_map.mp hx
      exact (homitted segment hmem).admits
  · have hnone : (omitted.map (·, "")).filterMap (fun x => x.1.capture? x.2) = [] := by
      simpa [List.filterMap_eq_nil_iff] using fun segment hmem =>
        (homitted segment hmem).capture?_eq_none
    have hsegments : (compile text).segments = Segment.compile text := rfl
    rw [toList_capturesAlong, hsegments, hplaced, List.filterMap_append, hnone, List.append_nil]

/-! ## Texts from given values -/

/-- The values that are written for placeholders are not empty and without slashes, and those for
named ones are of their types. -/
def ValuesFit (texts : List (Segment × String)) : Prop :=
  ∀ x ∈ texts, ∀ p ∈ x.1.placeholder?,
    x.2 ≠ "" ∧ '/' ∉ x.2.toList ∧ (p.name ≠ "" → p.valueType.accepts x.2 = true)

instance (texts : List (Segment × String)) : Decidable (ValuesFit texts) :=
  inferInstanceAs (Decidable (∀ x ∈ texts, ∀ p ∈ x.1.placeholder?, _))

/-- Compiled literals are not empty, have no slash and admit themselves, so that only the values of
placeholders have to. -/
theorem ValuesFit.forall_mem (h : ValuesFit (written value? (Segment.compile text))) :
    ∀ x ∈ written value? (Segment.compile text),
      x.2 ≠ "" ∧ '/' ∉ x.2.toList ∧ x.1.Admits x.2 := by
  rintro ⟨segment, value⟩ hx
  cases segment with
  | literal word =>
    obtain ⟨hmem, htext⟩ := mem_written.mp hx
    have hword : word = value := Option.some.inj htext
    obtain ⟨hne, hurl⟩ := literal_mem_compile hmem
    subst hword
    exact ⟨hne, fun hslash => absurd (hurl _ hslash) (by decide), rfl⟩
  | placeholder p =>
    obtain ⟨hne, hslash, haccepts⟩ := h _ hx p rfl
    refine ⟨hne, hslash, ?_⟩
    by_cases hname : p.name = ""
    · exact .inl hname
    · exact .inr (.inr (haccepts hname))

theorem ValuesFit.fits (h : ValuesFit (written value? (Segment.compile text))) :
    Fits (written value? (Segment.compile text)) where
  slash_notMem x hx := (h.forall_mem x hx).2.1
  emptyLast := Path.emptyLast_of_forall_ne (List.forall_mem_map.mpr fun x hx =>
    (h.forall_mem x hx).1)
  admits x hx := (h.forall_mem x hx).2.2

/-- The names of a pattern that have a value, with their values, in order. Unnamed placeholders
are left out. -/
def bindings (pattern : Pattern) (value? : String → Option String) : List (String × String) :=
  pattern.placeholders.filterMap fun p =>
    if p.name = "" then none else (value? p.name).map (p.name, ·)

theorem ValuesFit.filterMap_capture? (h : ValuesFit (written value? (Segment.compile text))) :
    (written value? (Segment.compile text)).filterMap (fun x => x.1.capture? x.2) =
      (compile text).bindings value? := by
  rw [written, bindings, placeholders, List.filterMap_filterMap, List.filterMap_filterMap]
  apply List.filterMap_congr
  intro segment hsegment
  cases segment with
  | literal word => rfl
  | placeholder p =>
    cases hvalue : value? p.name with
    | none => simp [Segment.text?, Segment.placeholder?, hvalue]
    | some value =>
      have hmem : (.placeholder p, value) ∈ written value? (Segment.compile text) :=
        mem_written.mpr ⟨hsegment, hvalue⟩
      obtain ⟨hne, -, haccepts⟩ := h _ hmem p rfl
      by_cases hname : p.name = ""
      · simp [Segment.text?, Segment.placeholder?, Segment.capture?, hname]
      · simp [Segment.text?, Segment.placeholder?, Segment.capture?, hvalue, hname, hne,
          haccepts hname]

/-- **A URI from values of the right types has these values as its captures**, unless it has the
normal form of the pattern's text. Placeholders may share a name, and optional ones at the end may
be left out. -/
theorem find?_uri_of_written {α : Type u} [Arguments α] (args : α)
    (huri : (compile text).uri args = .ok uri)
    (hne : written (Arguments.value? args) (compile text).segments ≠ [])
    (hvalues : ValuesFit (written (Arguments.value? args) (compile text).segments)) :
    ∃ captures, (compile text).find? uri = some captures ∧
      captures.toList =
        if Path.normalize uri = Path.normalize text then []
        else (compile text).bindings (Arguments.value? args) := by
  by_cases hnormal : Path.normalize uri = Path.normalize text
  · refine ⟨.empty, find?_of_normalize_eq hnormal, ?_⟩
    rw [if_pos hnormal]
    rfl
  · have hplaces : Path.normalize uri = "/" → 2 ≤ (Segment.compile text).length := by
      intro hslash
      have hpieces := (Path.normalize_eq_slash_iff.mp hslash).2
      rw [pieces_of_uriWith_compile huri hvalues.fits.slash_notMem, List.filter_eq_nil_iff,
        List.forall_mem_map] at hpieces
      obtain ⟨x, hx⟩ := List.exists_mem_of_ne_nil _ hne
      exact absurd (decide_eq_true (hvalues.forall_mem x hx).1) (hpieces x hx)
    obtain ⟨captures, hfind, hlist⟩ := hvalues.fits.exists_find? huri hnormal hplaces
    refine ⟨captures, hfind, ?_⟩
    rw [if_neg hnormal, hlist, hvalues.filterMap_capture?]

/-- Two placeholders share a name, and a third one is left out. -/
theorem find?_uri_of_shared_name :
    ∃ captures, (compile "/{id}/{id:int}/{slug?}").find? "/7/7" = some captures ∧
      captures.toList = [("id", "7"), ("id", "7")] := by
  have huri : (compile "/{id}/{id:int}/{slug?}").uri [("id", "7")] =
      .ok "/7/7" := by decide +kernel
  obtain ⟨captures, hfind, hlist⟩ :=
    find?_uri_of_written [("id", "7")] huri (by decide +kernel) (by decide +kernel)
  exact ⟨captures, hfind, hlist.trans (by decide +kernel)⟩

/-! ## Texts from captures -/

/-- No two placeholders share a name. Any number of them may be unnamed. -/
def HasDistinctNames (pattern : Pattern) : Prop :=
  pattern.placeholders.Pairwise fun p q => p.name = q.name → p.name = ""

instance (pattern : Pattern) : Decidable pattern.HasDistinctNames :=
  inferInstanceAs (Decidable (List.Pairwise _ _))

/-- Of texts at the places of segments, those are written that have a value, provided that the
value is the text. -/
theorem written_map_fst {texts : List (Segment × String)}
    (h : ∀ x ∈ texts, ∀ value, x.1.text? value? = some value → value = x.2) :
    written value? (texts.map Prod.fst) =
      texts.filter fun x => (x.1.text? value?).isSome := by
  induction texts with
  | nil => rfl
  | cons x texts ih =>
    have ih := ih fun y hy => h y (by simp [hy])
    rw [List.map_cons]
    cases htext : x.1.text? value? with
    | none => rw [written_cons_of_none htext, ih, List.filter_cons_of_neg (by simp [htext])]
    | some value =>
      rw [written_cons_of_some htext, ih, List.filter_cons_of_pos (by simp [htext]),
        h x (by simp) value htext]

/-- The texts of a normal form fit if their segments admit them. -/
theorem fits_placed {segments : List Segment} {path : String}
    (hlen : (Path.texts (Path.normalize path)).length ≤ segments.length)
    (hadmits : ∀ x ∈ placed segments (Path.texts (Path.normalize path)), x.1.Admits x.2) :
    Fits (placed segments (Path.texts (Path.normalize path))) where
  slash_notMem x hx := by
    rcases List.mem_append.mp (List.of_mem_zip hx).2 with htext | hpad
    · exact Path.slash_notMem_of_mem_texts htext
    · rw [List.eq_of_mem_replicate hpad]
      exact List.not_mem_nil
  emptyLast := by
    rw [map_snd_placed hlen]
    exact (Path.emptyLast_texts_normalize path).rightpad _
  admits := hadmits

/-- Only one place has a placeholder of a name. -/
theorem HasDistinctNames.eq_of_mem_placed (hnames : (compile text).HasDistinctNames)
    {texts : List String} {x y : Segment × String}
    (hx : x ∈ placed (Segment.compile text) texts) (hy : y ∈ placed (Segment.compile text) texts)
    {p q : Placeholder} (hp : x.1 = .placeholder p) (hq : y.1 = .placeholder q)
    (hname : p.name = q.name) (hne : p.name ≠ "") : x = y := by
  have hsegments : (compile text).segments =
      (placed (Segment.compile text) texts).map Prod.fst := (map_fst_placed _ _).symm
  rw [HasDistinctNames, placeholders, List.pairwise_filterMap, hsegments, List.pairwise_map]
    at hnames
  refine List.Pairwise.forall_of_forall_of_flip (R := fun x y => ∀ p q, x.1 = .placeholder p →
    y.1 = .placeholder q → p.name = q.name → p.name ≠ "" → x = y) ?_ ?_ ?_ hx hy p q hp hq hname hne
  · exact fun _ _ _ _ _ _ _ _ => rfl
  · refine hnames.imp fun h p q hp hq hname hne => absurd ?_ hne
    exact h p (by rw [hp]; rfl) q (by rw [hq]; rfl) hname
  · refine hnames.imp fun h p q hp hq hname hne => absurd (hname.trans ?_) hne
    exact h q (by rw [hq]; rfl) p (by rw [hp]; rfl) hname.symm

variable {path : String}

/-- The value that a match has for a segment is the text at its place. -/
theorem HasDistinctNames.eq_of_text?_capturesAlong (hnames : (compile text).HasDistinctNames)
    (hadmits : ∀ x ∈ placed (Segment.compile text) (Path.texts path), x.1.Admits x.2)
    {x : Segment × String} (hx : x ∈ placed (Segment.compile text) (Path.texts path))
    {value : String}
    (hvalue : x.1.text? (capturesAlong (Segment.compile text) path).get? = some value) :
    value = x.2 := by
  cases hsegment : x.1 with
  | literal word =>
    have hword := hadmits x hx
    rw [hsegment] at hword hvalue
    exact (Option.some.inj hvalue).symm.trans hword
  | placeholder p =>
    rw [hsegment, Segment.text?, get?_capturesAlong] at hvalue
    obtain ⟨pair, hfind, rfl⟩ := Option.map_eq_some_iff.mp hvalue
    obtain ⟨y, hy, hcapture⟩ := List.mem_filterMap.mp (List.mem_of_find?_eq_some hfind)
    obtain ⟨q, hq, hne, -, -, rfl⟩ := Segment.capture?_eq_some_iff.mp hcapture
    have hname : q.name = p.name := by simpa using List.find?_some hfind
    rw [hnames.eq_of_mem_placed hy hx hq hsegment hname hne]

/-- A segment that captures the text at its place has a value. -/
theorem isSome_text?_capturesAlong {segments : List Segment} {x : Segment × String}
    (hx : x ∈ placed segments (Path.texts path)) {pair : String × String}
    (hcapture : x.1.capture? x.2 = some pair) :
    (x.1.text? (capturesAlong segments path).get?).isSome := by
  obtain ⟨p, hp, -, -, -, rfl⟩ := Segment.capture?_eq_some_iff.mp hcapture
  rw [hp, Segment.text?, get?_capturesAlong, Option.isSome_map, List.find?_isSome]
  exact ⟨_, List.mem_filterMap.mpr ⟨x, hx, hcapture⟩, by simp⟩

/-- What is written with the values of a match are the texts that have a value. -/
theorem HasDistinctNames.written_capturesAlong (hnames : (compile text).HasDistinctNames)
    (hadmits : ∀ x ∈ placed (Segment.compile text) (Path.texts path), x.1.Admits x.2) :
    written (capturesAlong (Segment.compile text) path).get? (Segment.compile text) =
      (placed (Segment.compile text) (Path.texts path)).filter fun x =>
        (x.1.text? (capturesAlong (Segment.compile text) path).get?).isSome := by
  have hsegments := map_fst_placed (Segment.compile text) (Path.texts path)
  refine (congrArg (written _) hsegments.symm).trans ?_
  exact written_map_fst fun x hx value => hnames.eq_of_text?_capturesAlong hadmits hx

theorem HasDistinctNames.filterMap_capture?_written (hnames : (compile text).HasDistinctNames)
    (hadmits : ∀ x ∈ placed (Segment.compile text) (Path.texts path), x.1.Admits x.2) :
    (written (capturesAlong (Segment.compile text) path).get? (Segment.compile text)).filterMap
        (fun x => x.1.capture? x.2) =
      (capturesAlong (Segment.compile text) path).toList := by
  rw [hnames.written_capturesAlong hadmits, toList_capturesAlong, List.filterMap_filter]
  apply List.filterMap_congr
  intro x hx
  cases hcapture : x.1.capture? x.2 with
  | none => simp
  | some pair => rw [if_pos (isSome_text?_capturesAlong hx hcapture)]

theorem valuesFit_written_empty :
    ValuesFit (written Captures.empty.get? (Segment.compile text)) := by
  intro x hx p hp
  have htext := (mem_written.mp hx).2
  cases hsegment : x.1 with
  | literal word => rw [hsegment] at hp; cases hp
  | placeholder q => rw [hsegment] at htext; cases htext

/-- What is written with the values of a match fits, and the segments capture the same of it. -/
theorem fits_written_of_find? {captures : Captures} (hnames : (compile text).HasDistinctNames)
    (hfind : (compile text).find? path = some captures) :
    Fits (written captures.get? (Segment.compile text)) ∧
      (written captures.get? (Segment.compile text)).filterMap (fun x => x.1.capture? x.2) =
        captures.toList := by
  by_cases hnormal : Path.normalize path = Path.normalize text
  · cases (find?_of_normalize_eq hnormal).symm.trans hfind
    refine ⟨valuesFit_written_empty.fits, ?_⟩
    rw [valuesFit_written_empty.filterMap_capture?]
    exact List.filterMap_eq_nil_iff.mpr fun p _ => by split <;> rfl
  · obtain ⟨hlen, hadmits, rfl⟩ :=
      (find?_eq_some_iff (empty_literal_notMem_compile text) hnormal).mp hfind
    refine ⟨?_, hnames.filterMap_capture?_written hadmits⟩
    have hwritten := hnames.written_capturesAlong hadmits
    exact (fits_placed hlen hadmits).sublist (hwritten ▸ List.filter_sublist)

/-- **A URI from the captures of a match has the same captures**, unless it has the normal form of
the pattern's text. It does not match only if it is `/`, whose two texts may be too many. -/
theorem find?_uri_of_find? {captures : Captures} (hnames : (compile text).HasDistinctNames)
    (hfind : (compile text).find? path = some captures)
    (huri : (compile text).uri captures = .ok uri) :
    ((compile text).find? uri = none ↔
        Path.normalize uri = "/" ∧ (compile text).segments.length ≤ 1 ∧
          Path.normalize text ≠ "/") ∧
      ∀ again, (compile text).find? uri = some again →
        again.toList =
          if Path.normalize uri = Path.normalize text then [] else captures.toList := by
  by_cases hnormal : Path.normalize uri = Path.normalize text
  · have hfind' : (compile text).find? uri = some .empty := find?_of_normalize_eq hnormal
    rw [hfind', if_pos hnormal, hnormal]
    refine ⟨?_, ?_⟩
    · exact ⟨(nomatch ·), fun h => absurd h.1 h.2.2⟩
    · rintro again ⟨⟩
      rfl
  · rw [if_neg hnormal]
    by_cases hplaces : Path.normalize uri = "/" → 2 ≤ (Segment.compile text).length
    · obtain ⟨hfits, hlist⟩ := fits_written_of_find? hnames hfind
      obtain ⟨again, hfind', hagain⟩ := hfits.exists_find? huri hnormal hplaces
      rw [hfind']
      refine ⟨⟨(nomatch ·), ?_⟩, ?_⟩
      · rintro ⟨hslash, hle, -⟩
        exact absurd (Nat.lt_of_lt_of_le (hplaces hslash) hle) (Nat.lt_irrefl 1)
      · rintro again' ⟨⟩
        exact hagain.trans hlist
    · -- the two empty texts of `/` do not have two places
      obtain ⟨hslash, hlt⟩ := Classical.not_imp.mp hplaces
      have hnone : (compile text).find? uri = none :=
        find?_eq_none_of_length_lt (empty_literal_notMem_compile text) hnormal
          (hslash ▸ Nat.not_le.mp hlt)
      rw [hnone]
      refine ⟨⟨fun _ => ?_, fun _ => rfl⟩, fun again h => nomatch h⟩
      exact ⟨hslash, Nat.le_of_lt_succ (Nat.not_le.mp hlt), fun h => hnormal (hslash.trans h.symm)⟩

/-- An optional placeholder at the end is left out of the URI. -/
theorem find?_uri_of_find?_omitted :
    ∃ again, (compile "/users/{id:int}/posts/{slug?}").find? "/users/42/posts" =
      some again ∧ again.toList = [("id", "42")] := by
  have hfind : (compile "/users/{id:int}/posts/{slug?}").find? "users//42/posts/" =
      some ⟨some "users/42/posts", [⟨"id", 6, 8⟩]⟩ := by decide +kernel
  have huri : (compile "/users/{id:int}/posts/{slug?}").uri
      (⟨some "users/42/posts", [⟨"id", 6, 8⟩]⟩ : Captures) = .ok "/users/42/posts" := by
    decide +kernel
  obtain ⟨hnone, hlist⟩ := find?_uri_of_find? (by decide +kernel) hfind huri
  have hsome : (compile "/users/{id:int}/posts/{slug?}").find? "/users/42/posts" ≠
      none := fun h => absurd (hnone.mp h).1 (by decide +kernel)
  obtain ⟨again, hagain⟩ := Option.ne_none_iff_exists'.mp hsome
  exact ⟨again, hagain, (hlist again hagain).trans (by decide +kernel)⟩

/-- A required placeholder takes the empty text of the empty path, but the URI is `/`. -/
example :
    ((compile "/{name}").find? "").map Captures.toList = some [("name", "")] ∧
      (compile "/{name}").uri [("name", "")] = .ok "/" ∧
      (compile "/{name}").find? "/" = none := by
  decide +kernel

end Pattern

end PathRouting
