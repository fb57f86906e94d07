import PathRouting.Proofs.Path.Parts
import PathRouting.Proofs.Text.Joined

/-!
# The normal form of a path

The pieces of a path are the texts between its slashes that are not empty. The normal form keeps
the pieces and forgets the slashes around them: it joins the pieces with single slashes
(`normalize_eq`), except that a path of slashes only becomes a single slash. Hence the texts of a
normal form are its pieces (`texts_normalize`), which are those of the path (`pieces_normalize`),
and an empty text can only follow all others (`emptyLast_texts_normalize`).
-/

namespace PathRouting.Path

/-- The texts between the slashes of a path that are not empty, in order. -/
def pieces (path : String) : List String :=
  (texts path).filter (· ≠ "")

/-! ## Collapsing -/

theorem collapse_append {word : List Char} (h : '/' ∉ word) (rest : List Char) :
    collapse (word ++ rest) = word ++ collapse rest := by
  induction word with
  | nil => rfl
  | cons c word ih =>
    have hc : c ≠ '/' := fun e => h (by simp [e])
    rw [List.cons_append, collapse, if_neg (by simp [hc]), ih fun hm => h (by simp [hm]),
      List.cons_append]

theorem collapse_eq_self {word : List Char} (h : '/' ∉ word) : collapse word = word := by
  simpa [collapse] using collapse_append h []

theorem collapse_slash_of_head {rest : List Char} (h : rest.head? = some '/') :
    collapse ('/' :: rest) = collapse rest := by
  rw [collapse, if_pos ⟨rfl, h⟩]

theorem collapse_slash_of_not_head {rest : List Char} (h : rest.head? ≠ some '/') :
    collapse ('/' :: rest) = '/' :: collapse rest := by
  rw [collapse, if_neg (by simp [h])]

/-- Without doubled slashes there is nothing to collapse. -/
theorem collapse_of_not_hasDoubledSlash {cs : List Char} (h : hasDoubledSlash cs = false) :
    collapse cs = cs := by
  induction cs with
  | nil => rfl
  | cons c cs ih =>
    rw [hasDoubledSlash, Bool.or_eq_false_iff] at h
    rw [collapse, if_neg (by simpa using h.1), ih h.2]

/-- A slash and words joined by slashes collapse to the words that are not empty, each behind a
slash, and to one more slash if the last word is empty. -/
theorem collapse_slash_intercalate {words : List (List Char)} (hs : ∀ word ∈ words, '/' ∉ word)
    (hne : words ≠ []) :
    collapse ('/' :: ['/'].intercalate words) =
      (words.filter (· ≠ [])).flatMap ('/' :: ·) ++
        if words.getLast? = some [] then ['/'] else [] := by
  induction words with
  | nil => exact absurd rfl hne
  | cons word words ih =>
    have hword : '/' ∉ word := hs word (by simp)
    cases words with
    | nil =>
      cases word with
      | nil => rfl
      | cons c word =>
        have hc : c ≠ '/' := fun e => hword (by simp [e])
        rw [List.intercalate_singleton, collapse_slash_of_not_head (by simp [hc]),
          collapse_eq_self hword]
        simp
    | cons next words =>
      have hrest := ih (fun w hw => hs w (by simp [hw])) (by simp)
      have hlast : (word :: next :: words).getLast? = (next :: words).getLast? := by
        rw [List.getLast?_cons_cons]
      rw [hlast, List.intercalate_cons_cons]
      cases word with
      | nil =>
        -- an empty word: its slash is dropped before the slash behind it
        rw [List.nil_append, List.singleton_append, collapse_slash_of_head rfl, hrest]
        simp
      | cons c word =>
        have hc : c ≠ '/' := fun e => hword (by simp [e])
        rw [collapse_slash_of_not_head (by simp [hc]), List.append_assoc, collapse_append hword,
          List.singleton_append, hrest]
        simp

theorem collapse_slash (cs : List Char) :
    collapse ('/' :: cs) =
      ((cs.splitOn '/').filter (· ≠ [])).flatMap ('/' :: ·) ++
        if (cs.splitOn '/').getLast? = some [] then ['/'] else [] := by
  have h := collapse_slash_intercalate (fun _ => slash_notMem_of_mem_splitOn)
    (List.splitOn_ne_nil '/' cs)
  rwa [List.intercalate_splitOn] at h

/-! ## Trimming -/

theorem head?_collapse (cs : List Char) : (collapse cs).head? = cs.head? := by
  induction cs with
  | nil => rfl
  | cons c cs ih =>
    rw [collapse]
    split
    case isTrue h => rw [ih, h.2, List.head?_cons, h.1]
    case isFalse h => rfl

/-- Whether a slash was put at the front does not matter once it is dropped. -/
theorem dropLeadingSlash_collapse (cs : List Char) :
    dropLeadingSlash (collapse cs) = (collapse ('/' :: cs)).tail := by
  have hhead := head?_collapse cs
  by_cases h : cs.head? = some '/'
  · rw [collapse_slash_of_head h]
    rw [h] at hhead
    obtain ⟨rest, hrest⟩ := List.head?_eq_some_iff.mp hhead
    rw [hrest]
    rfl
  · rw [collapse_slash_of_not_head h, List.tail_cons]
    unfold dropLeadingSlash
    split
    case h_1 rest heq => rw [heq] at hhead; exact absurd hhead.symm h
    case h_2 => rfl

theorem dropTrailingSlash_intercalate {words : List (List Char)}
    (hs : ∀ word ∈ words, '/' ∉ word) (hw : ∀ word ∈ words, word ≠ []) (p : Prop) [Decidable p] :
    dropTrailingSlash (['/'].intercalate words ++ if p then ['/'] else []) =
      ['/'].intercalate words := by
  by_cases hp : p
  · simp [dropTrailingSlash, hp]
  · simp [dropTrailingSlash, hp, Text.getLast?_intercalate_ne hs hw]

/-! ## The normal form -/

/-- A path all of whose words are empty collapses to a single slash. -/
theorem collapse_eq_slash {cs : List Char} (hnil : cs ≠ [])
    (hempty : (cs.splitOn '/').filter (· ≠ []) = []) : collapse cs = ['/'] := by
  have hlast : (cs.splitOn '/').getLast? = some [] := by
    rw [List.getLast?_eq_some_getLast (List.splitOn_ne_nil _ _)]
    simpa using List.filter_eq_nil_iff.mp hempty _ (List.getLast_mem (List.splitOn_ne_nil _ _))
  have hcollapse : collapse ('/' :: cs) = ['/'] := by
    rw [collapse_slash, hempty, hlast]
    rfl
  by_cases h : cs.head? = some '/'
  · rw [← collapse_slash_of_head h, hcollapse]
  · rw [collapse_slash_of_not_head h] at hcollapse
    have hhead := head?_collapse cs
    rw [(List.cons.inj hcollapse).2] at hhead
    exact absurd (List.head?_eq_none_iff.mp hhead.symm) hnil

theorem trim_collapse (cs : List Char) :
    trim (collapse cs) =
      if cs ≠ [] ∧ (cs.splitOn '/').filter (· ≠ []) = [] then ['/']
      else ['/'].intercalate ((cs.splitOn '/').filter (· ≠ [])) := by
  split
  case isTrue h => rw [collapse_eq_slash h.1 h.2, trim, if_pos rfl]
  case isFalse h =>
    by_cases hempty : (cs.splitOn '/').filter (· ≠ []) = []
    · have hnil : cs = [] := Classical.byContradiction fun hnil => h ⟨hnil, hempty⟩
      subst hnil
      rfl
    · have hs : ∀ word ∈ (cs.splitOn '/').filter (· ≠ []), '/' ∉ word :=
        fun word hw => slash_notMem_of_mem_splitOn (List.mem_filter.mp hw).1
      have hw : ∀ word ∈ (cs.splitOn '/').filter (· ≠ []), word ≠ [] :=
        fun word hw => by simpa using (List.mem_filter.mp hw).2
      have hdrop := dropLeadingSlash_collapse cs
      rw [collapse_slash, Text.flatMap_cons_eq hempty, List.cons_append, List.tail_cons] at hdrop
      have hne : collapse cs ≠ ['/'] := by
        intro hone
        rw [hone] at hdrop
        exact Text.intercalate_ne_nil hempty hw (List.append_eq_nil_iff.mp hdrop.symm).1
      rw [trim, if_neg hne, hdrop, dropTrailingSlash_intercalate hs hw]

/-! ## Pieces -/

theorem map_toList_pieces (path : String) :
    (pieces path).map String.toList = (path.toList.splitOn '/').filter (· ≠ []) := by
  have hp : (fun text : String => decide (text ≠ "")) ∘ String.ofList =
      fun word => decide (word ≠ []) := by
    funext word
    simp
  rw [pieces, texts, List.filter_map, hp, List.map_map]
  simp [Function.comp_def]

theorem ne_empty_of_mem_pieces {path piece : String} (h : piece ∈ pieces path) : piece ≠ "" := by
  simpa using (List.mem_filter.mp h).2

theorem slash_notMem_of_mem_pieces {path piece : String} (h : piece ∈ pieces path) :
    '/' ∉ piece.toList :=
  slash_notMem_of_mem_texts (List.mem_filter.mp h).1

/-- The pieces hold the characters of the path that are no slashes. -/
theorem exists_mem_pieces_iff {path : String} {c : Char} :
    (∃ piece ∈ pieces path, c ∈ piece.toList) ↔ c ∈ path.toList ∧ c ≠ '/' := by
  have hpath : ['/'].intercalate (path.toList.splitOn '/') = path.toList :=
    List.intercalate_splitOn '/'
  constructor
  · rintro ⟨piece, hpiece, hc⟩
    have hne : c ≠ '/' := fun e => slash_notMem_of_mem_pieces hpiece (e ▸ hc)
    have hword := List.mem_map_of_mem (f := String.toList) hpiece
    rw [map_toList_pieces] at hword
    rw [← hpath, Text.mem_intercalate_iff hne]
    exact ⟨⟨_, (List.mem_filter.mp hword).1, hc⟩, hne⟩
  · rintro ⟨hmem, hne⟩
    rw [← hpath, Text.mem_intercalate_iff hne] at hmem
    obtain ⟨word, hword, hc⟩ := hmem
    have hmap : word ∈ (pieces path).map String.toList := by
      rw [map_toList_pieces, List.mem_filter]
      exact ⟨hword, by simpa using List.ne_nil_of_mem hc⟩
    obtain ⟨piece, hpiece, rfl⟩ := List.mem_map.mp hmap
    exact ⟨piece, hpiece, hc⟩

/-- Only a path of slashes, or the empty one, has no pieces. -/
theorem pieces_eq_nil_iff {path : String} : pieces path = [] ↔ ∀ c ∈ path.toList, c = '/' := by
  constructor
  · intro h c hc
    refine Classical.byContradiction fun hne => ?_
    obtain ⟨piece, hpiece, -⟩ := exists_mem_pieces_iff.mpr ⟨hc, hne⟩
    rw [h] at hpiece
    exact absurd hpiece List.not_mem_nil
  · intro h
    refine List.eq_nil_iff_forall_not_mem.mpr fun piece hpiece => ?_
    obtain ⟨c, cs, hcs⟩ := List.exists_cons_of_ne_nil
      (mt String.toList_eq_nil_iff.mp (ne_empty_of_mem_pieces hpiece))
    obtain ⟨hc, hne⟩ := exists_mem_pieces_iff.mp ⟨piece, hpiece, hcs ▸ List.mem_cons_self⟩
    exact hne (h c hc)

/-- Texts without slashes are the pieces of the path that joins them, if they are not empty. -/
theorem pieces_intercalate {words : List String} (hs : ∀ word ∈ words, '/' ∉ word.toList)
    (hw : ∀ word ∈ words, word ≠ "") (hne : words ≠ []) :
    pieces ("/".intercalate words) = words := by
  rw [pieces, texts_intercalate hs hne, List.filter_eq_self]
  exact fun word hword => by simpa using hw word hword

/-- Whether the path is collapsed before it is trimmed makes no difference without doubled
slashes. -/
theorem normalize_eq_trim_collapse (path : String) :
    normalize path = String.ofList (trim (collapse path.toList)) := by
  rw [normalize]
  split
  case isTrue => rfl
  case isFalse h => rw [collapse_of_not_hasDoubledSlash (by simpa using h)]

/-- **The normal form joins the pieces with single slashes**, and is a single slash for a path of
slashes only. -/
theorem normalize_eq (path : String) :
    normalize path =
      if path ≠ "" ∧ pieces path = [] then "/" else "/".intercalate (pieces path) := by
  have hcond : (path.toList ≠ [] ∧ (path.toList.splitOn '/').filter (· ≠ []) = []) ↔
      (path ≠ "" ∧ pieces path = []) := by
    rw [← map_toList_pieces, List.map_eq_nil_iff, ne_eq, String.toList_eq_nil_iff]
  rw [normalize_eq_trim_collapse, trim_collapse]
  simp only [hcond]
  split
  case isTrue => rfl
  case isFalse =>
    apply String.toList_inj.mp
    rw [String.toList_ofList, String.toList_intercalate, map_toList_pieces]
    rfl

/-- The texts of a normal form are the pieces, where there are any. -/
theorem texts_normalize (path : String) :
    texts (normalize path) =
      if pieces path ≠ [] then pieces path else if path = "" then [""] else ["", ""] := by
  rw [normalize_eq]
  by_cases hpieces : pieces path = []
  · by_cases hpath : path = ""
    · subst hpath
      rfl
    · rw [if_pos ⟨hpath, hpieces⟩, if_neg (by simp [hpieces]), if_neg hpath]
      rfl
  · rw [if_neg (by simp [hpieces]), if_pos hpieces,
      texts_intercalate (fun _ => slash_notMem_of_mem_pieces) hpieces]

/-- The normal form has the pieces of the path. -/
theorem pieces_normalize (path : String) : pieces (normalize path) = pieces path := by
  have hself : (pieces path).filter (· ≠ "") = pieces path :=
    List.filter_eq_self.mpr fun piece h => by simpa using ne_empty_of_mem_pieces h
  rw [pieces, texts_normalize]
  by_cases hpieces : pieces path = []
  · rw [if_neg (by simp [hpieces]), hpieces]
    split <;> rfl
  · rw [if_pos hpieces, hself]

/-- What joins texts without slashes is in normal form, if they are not empty. -/
theorem normalize_intercalate {words : List String} (hs : ∀ word ∈ words, '/' ∉ word.toList)
    (hw : ∀ word ∈ words, word ≠ "") (hne : words ≠ []) :
    normalize ("/".intercalate words) = "/".intercalate words := by
  rw [normalize_eq, pieces_intercalate hs hw hne, if_neg fun h => hne h.2]

theorem normalize_eq_slash_iff {path : String} :
    normalize path = "/" ↔ path ≠ "" ∧ pieces path = [] := by
  constructor
  · intro h
    have htexts := texts_normalize path
    rw [h] at htexts
    by_cases hpieces : pieces path = []
    · rw [if_neg (by simp [hpieces])] at htexts
      split at htexts
      case isTrue => exact absurd htexts (by decide)
      case isFalse hpath => exact ⟨hpath, hpieces⟩
    · rw [if_pos hpieces] at htexts
      have hmem : "" ∈ pieces path := by rw [← htexts]; decide
      exact absurd rfl (ne_empty_of_mem_pieces hmem)
  · exact fun h => by rw [normalize_eq, if_pos h]

/-! ## Empty texts at the end -/

/-- Behind an empty text all texts are empty. -/
def EmptyLast (texts : List String) : Prop :=
  texts.Pairwise fun text later => text = "" → later = ""

theorem emptyLast_of_forall_ne {words : List String} (h : ∀ word ∈ words, word ≠ "") :
    EmptyLast words := by
  induction words with
  | nil => exact .nil
  | cons word words ih =>
    exact .cons (fun _ _ e => absurd e (h word (by simp))) (ih fun w hw => h w (by simp [hw]))

theorem emptyLast_texts_normalize (path : String) : EmptyLast (texts (normalize path)) := by
  rw [texts_normalize]
  split
  case isTrue => exact emptyLast_of_forall_ne fun _ => ne_empty_of_mem_pieces
  case isFalse =>
    split
    · simp [EmptyLast]
    · simp [EmptyLast]

theorem EmptyLast.rightpad {words : List String} (h : EmptyLast words) (n : Nat) :
    EmptyLast (words.rightpad n "") := by
  rw [EmptyLast, List.rightpad, List.pairwise_append]
  refine ⟨h, ?_, fun _ _ _ hpad _ => List.eq_of_mem_replicate hpad⟩
  exact List.pairwise_replicate.mpr (.inr fun _ => rfl)

/-- Empty texts at the end are the same as places without a text. -/
theorem EmptyLast.rightpad_filter {words : List String} (h : EmptyLast words) {n : Nat}
    (hn : words.length ≤ n) :
    (words.filter (· ≠ "")).rightpad n "" = words.rightpad n "" := by
  induction words generalizing n with
  | nil => rfl
  | cons word words ih =>
    obtain ⟨hword, hwords⟩ := List.pairwise_cons.mp h
    by_cases he : word = ""
    · have hall : ∀ later ∈ word :: words, later = "" := by
        simpa [he] using fun later hlater => hword later hlater he
      have hnil : (word :: words).filter (· ≠ "") = [] := by
        simpa [List.filter_eq_nil_iff] using hall
      rw [hnil, List.eq_replicate_of_mem hall, List.rightpad, List.rightpad, List.nil_append,
        List.length_nil, List.length_replicate, List.replicate_append_replicate]
      congr 1
      omega
    · obtain ⟨m, rfl⟩ := Nat.exists_eq_add_one_of_ne_zero (n := n) (by simp at hn; omega)
      have hrest := ih hwords (n := m) (by simpa using hn)
      simpa [he, List.rightpad] using hrest

/-- With at least two places it makes no difference that the normal form of a path of slashes has
two empty texts. -/
theorem rightpad_texts_normalize {path : String} {n : Nat} (hpath : path ≠ "")
    (hn : pieces path = [] → 2 ≤ n) :
    (texts (normalize path)).rightpad n "" = (pieces path).rightpad n "" := by
  rw [texts_normalize]
  by_cases hpieces : pieces path = []
  · obtain ⟨m, rfl⟩ := Nat.exists_eq_add_of_le (hn hpieces)
    rw [if_neg (by simp [hpieces]), if_neg hpath, hpieces]
    simp [List.rightpad, Nat.add_comm 2 m, List.replicate_succ]
  · rw [if_pos hpieces]

/-! ## Paths written text by text -/

/-- The path of some texts, with a slash before each. -/
def ofTexts (words : List String) : String :=
  String.join (words.map ("/" ++ ·))

theorem ofTexts_cons (word : String) (words : List String) :
    ofTexts (word :: words) = "/" ++ word ++ ofTexts words := by
  rw [ofTexts, List.map_cons, String.join_cons, ofTexts]

theorem ofTexts_eq_empty_iff {words : List String} : ofTexts words = "" ↔ words = [] := by
  cases words with
  | nil => simp [ofTexts]
  | cons word words => simp [ofTexts_cons]

theorem ofTexts_eq_intercalate (words : List String) :
    ofTexts words = "/".intercalate ("" :: words) := by
  induction words with
  | nil => rfl
  | cons word words ih =>
    rw [ofTexts_cons, ih, String.intercalate_cons_cons]
    cases words with
    | nil => simp
    | cons next words => simp [String.intercalate_cons_cons, String.append_assoc]

theorem pieces_ofTexts {words : List String} (hs : ∀ word ∈ words, '/' ∉ word.toList) :
    pieces (ofTexts words) = words.filter (· ≠ "") := by
  have hs' : ∀ word ∈ "" :: words, '/' ∉ word.toList := by simpa using hs
  rw [pieces, ofTexts_eq_intercalate, texts_intercalate hs' (by simp)]
  simp

end PathRouting.Path
