import Mathlib.Data.List.Basic
import PathRouting.Proofs.Pattern.Runs
import PathRouting.Proofs.Text.Ascii

/-!
# Reading a text as runs

The tokens of a text are read byte by byte. At a character boundary `Reading` says all that a
step can do (`reading_step`): read a run with the opening in front of it and at most one closing
character behind it, or pass over one byte. A character beyond ASCII is passed over byte by byte
(`tokensFrom_add`). Hence the tokens are those of the maximal runs of URL characters
(`tokens_eq_map_token`), and a text compiles to one segment for each run.
-/

namespace PathRouting.Pattern

/-! ## Bytes at a character boundary -/

theorem toNat_lt_of_isUrlChar {c : Char} (h : isUrlChar c = true) : c.toNat < 128 := by
  have hmarks : "-_.~:?#[]@!$&'()*+,;=".toList.all (fun c => c.toNat < 128) = true := by decide
  rw [isUrlChar, Bool.or_eq_true] at h
  rcases h with h | h
  · change (decide ('A'.val ≤ c.val ∧ c.val ≤ 'Z'.val) ||
      ('a'.val ≤ c.val && c.val ≤ 'z'.val) || ('0'.val ≤ c.val && c.val ≤ '9'.val)) = true at h
    have hc : c.val.toNat = c.toNat := rfl
    simp [UInt32.le_iff_toNat_le] at h
    omega
  · exact of_decide_eq_true (List.all_eq_true.mp hmarks c (List.contains_iff_mem.mp h))

variable {text : String} {before rest : List Char}

theorem drop_bytes (h : text.toList = before ++ rest) :
    (Text.bytes text).toList.drop (Text.byteSize before) = rest.flatMap String.utf8EncodeChar := by
  rw [Text.bytes, List.toList_toArray, h, List.flatMap_append,
    List.drop_left' (Text.length_flatMap_utf8EncodeChar before)]

theorem byteSize_concat {c : Char} (hc : c.toNat < 128) (before : List Char) :
    Text.byteSize (before ++ [c]) = Text.byteSize before + 1 := by
  rw [Text.byteSize_append, Text.byteSize, Text.byteSize, Text.utf8Size_ascii hc]

theorem after?_eq (h : text.toList = before ++ rest) {c : Char} (hc : c.toNat < 128) :
    after? c (Text.bytes text) (Text.byteSize before) =
      if rest.head? = some c then some (Text.byteSize (before ++ [c])) else none := by
  rw [after?, byteSize_concat hc, ← Array.getElem?_toList, ← List.head?_drop, drop_bytes h]
  simp only [Text.head?_flatMap_utf8EncodeChar hc]

theorem runEnd_eq_byteSize (h : text.toList = before ++ rest) :
    runEnd (Text.bytes text) (Text.byteSize before) =
      Text.byteSize (before ++ rest.takeWhile isUrlChar) := by
  have htake := Text.takeWhile_flatMap_utf8EncodeChar (fun _ => toNat_lt_of_isUrlChar) rest
  change List.takeWhile isUrlByte _ = _ at htake
  rw [runEnd_eq, drop_bytes h, htake, Text.length_flatMap_utf8EncodeChar, Text.byteSize_append]

/-! ## One step -/

/-- What stands in front of a run of each kind: an opening brace, perhaps behind a slash, or
nothing. -/
inductive Opening : Token.Kind → List Char → Prop
  | literal : Opening .literal []
  | brace : Opening .placeholder ['{']
  | slashBrace : Opening .placeholder ['/', '{']

/-- What a step can do behind `before`, with `rest` ahead. -/
inductive Reading (before : List Char) : List Char → Step → Prop
  /-- Reads a run with its opening, and perhaps one character behind it. -/
  | run {kind : Token.Kind} {front chars close after : List Char} (hfront : Opening kind front)
      (hne : chars ≠ []) (hchars : ∀ c ∈ chars, isUrlChar c = true)
      (hclose : close = [] ∨ close = ['}'] ∨ close = ['/'])
      (hafter : ∀ c, (close ++ after).head? = some c → isUrlChar c = false) :
      Reading before (front ++ (chars ++ (close ++ after)))
        { token? := some ⟨kind, Text.byteSize (before ++ front),
            Text.byteSize (before ++ front ++ chars)⟩
          next := Text.byteSize (before ++ front ++ chars ++ close) }
  /-- Passes over one byte, where no run starts. -/
  | pass {c : Char} {cs : List Char} (hc : isUrlChar c = false)
      (hbrace : c = '{' → ∀ d, cs.head? = some d → isUrlChar d = false) :
      Reading before (c :: cs) ⟨none, Text.byteSize before + 1⟩

theorem afterBrace?_cases (h : text.toList = before ++ rest) :
    (∃ front inner, rest = front ++ inner ∧ Opening .placeholder front ∧
      afterBrace? (Text.bytes text) (Text.byteSize before) =
        some (Text.byteSize (before ++ front))) ∨
    (rest.head? ≠ some '{' ∧ afterBrace? (Text.bytes text) (Text.byteSize before) = none) := by
  rw [afterBrace?, after?_eq h (by decide), after?_eq h (by decide)]
  by_cases hbrace : rest.head? = some '{'
  · obtain ⟨inner, rfl⟩ := List.head?_eq_some_iff.mp hbrace
    exact .inl ⟨['{'], inner, rfl, .brace, by simp⟩
  · by_cases hslash : rest.head? = some '/'
    · obtain ⟨inner, rfl⟩ := List.head?_eq_some_iff.mp hslash
      have h' : text.toList = (before ++ ['/']) ++ inner := by simpa using h
      rw [if_neg hbrace, if_pos hslash, Option.none_or, Option.bind_some,
        after?_eq h' (by decide)]
      by_cases hinner : inner.head? = some '{'
      · obtain ⟨inner, rfl⟩ := List.head?_eq_some_iff.mp hinner
        exact .inl ⟨['/', '{'], inner, rfl, .slashBrace, by simp⟩
      · exact .inr ⟨hbrace, if_neg hinner⟩
    · exact .inr ⟨hbrace, by simp [hbrace, hslash]⟩

/-- Where a run starts, it is read to its end, with the character `c` if that stands behind. -/
theorem readRun?_cases (h : text.toList = before ++ rest) {c : Char} (hc : c.toNat < 128)
    (kind : Token.Kind) :
    (∃ chars close after, rest = chars ++ (close ++ after) ∧ chars ≠ [] ∧
      (∀ d ∈ chars, isUrlChar d = true) ∧ (close = [] ∨ close = [c]) ∧
      (∀ d, (close ++ after).head? = some d → isUrlChar d = false) ∧
      readRun? kind c (Text.bytes text) (Text.byteSize before) = some
        { token? := some ⟨kind, Text.byteSize before, Text.byteSize (before ++ chars)⟩
          next := Text.byteSize (before ++ chars ++ close) }) ∨
    ((∀ d, rest.head? = some d → isUrlChar d = false) ∧
      readRun? kind c (Text.bytes text) (Text.byteSize before) = none) := by
  have hsplit : rest = rest.takeWhile isUrlChar ++ rest.dropWhile isUrlChar :=
    List.takeWhile_append_dropWhile.symm
  have hbehind : ∀ d, (rest.dropWhile isUrlChar).head? = some d → isUrlChar d = false := by
    intro d hd
    have hnot := List.head?_dropWhile_not isUrlChar rest
    rw [hd] at hnot
    exact Bool.eq_false_iff.mpr (by simpa using hnot)
  have hurl : ∀ d ∈ rest.takeWhile isUrlChar, isUrlChar d = true :=
    List.all_eq_true.mp List.all_takeWhile
  rw [readRun?, runEnd_eq_byteSize h]
  generalize rest.takeWhile isUrlChar = chars, rest.dropWhile isUrlChar = behind at *
  subst hsplit
  by_cases hchars : chars = []
  · subst hchars
    exact .inr ⟨by simpa using hbehind, if_neg (by simp)⟩
  · have hlt : Text.byteSize before < Text.byteSize (before ++ chars) := by
      have := Text.byteSize_pos hchars
      rw [Text.byteSize_append]
      omega
    have h' : text.toList = (before ++ chars) ++ behind := by simpa using h
    rw [if_pos hlt, after?_eq h' hc]
    by_cases hhead : behind.head? = some c
    · obtain ⟨after, rfl⟩ := List.head?_eq_some_iff.mp hhead
      exact .inl ⟨chars, [c], after, rfl, hchars, hurl, .inr rfl, hbehind, by simp⟩
    · exact .inl ⟨chars, [], behind, rfl, hchars, hurl, .inl rfl, hbehind, by simp [hhead]⟩

/-- **A step at a character boundary reads a run or passes over a byte.** -/
theorem reading_step (h : text.toList = before ++ rest) (hne : rest ≠ []) :
    Reading before rest (step (Text.bytes text) (Text.byteSize before)) := by
  have hliteral := readRun?_cases h (c := '/') (by decide) .literal
  rw [step]
  rcases afterBrace?_cases h with ⟨front, inner, rfl, hfront, hopen⟩ | ⟨hbrace, hopen⟩
  · rw [hopen, Option.bind_some]
    have h' : text.toList = (before ++ front) ++ inner := by simpa using h
    rcases readRun?_cases h' (c := '}') (by decide) .placeholder with
      ⟨chars, close, after, rfl, hchars, hurl, hclose, hafter, hread⟩ | ⟨hinner, hread⟩
    · rw [hread, Option.some_or, Option.getD_some]
      exact .run hfront hchars hurl (hclose.imp_right .inl) hafter
    · rw [hread, Option.none_or]
      -- the opening starts no literal, so that its first byte is passed over
      rcases hliteral with ⟨chars, close, after, heq, hchars, hurl, -⟩ | ⟨hrest, hnone⟩
      · obtain ⟨d, ds, rfl⟩ := List.exists_cons_of_ne_nil hchars
        have hd := hurl d (by simp)
        cases hfront with
        | brace => exact absurd ((List.cons.inj heq).1 ▸ hd) (by decide)
        | slashBrace => exact absurd ((List.cons.inj heq).1 ▸ hd) (by decide)
      · rw [hnone, Option.getD_none]
        cases hfront with
        | brace => exact .pass (by decide) fun _ => hinner
        | slashBrace => exact .pass (by decide) fun hc => absurd hc (by decide)
  · rw [hopen, Option.bind_none, Option.none_or]
    rcases hliteral with ⟨chars, close, after, rfl, hchars, hurl, hclose, hafter, hread⟩ |
      ⟨hrest, hread⟩
    · rw [hread, Option.getD_some]
      simpa using Reading.run .literal hchars hurl (hclose.imp_right .inr) hafter
    · rw [hread, Option.getD_none]
      obtain ⟨c, cs, rfl⟩ := List.exists_cons_of_ne_nil hne
      exact .pass (hrest c rfl) fun hc => absurd (by simp [hc]) hbrace

/-! ## The whole text -/

theorem after?_of_le {bytes : Array UInt8} {i : Nat} (hi : i < bytes.size)
    (h : 128 ≤ bytes[i].toNat) {c : Char} (hc : c.toNat < 128) : after? c bytes i = none := by
  rw [after?, if_neg]
  intro heq
  rw [Array.getElem?_eq_getElem hi, Option.some.injEq] at heq
  rw [heq, Text.toNat_toUInt8 hc] at h
  omega

/-- A byte beyond ASCII is passed over. -/
theorem step_of_le {bytes : Array UInt8} {i : Nat} (hi : i < bytes.size)
    (h : 128 ≤ bytes[i].toNat) : step bytes i = ⟨none, i + 1⟩ := by
  have hbyte : isUrlByte bytes[i] = false := by
    refine Bool.eq_false_iff.mpr fun hurl => ?_
    have := toNat_lt_of_isUrlChar hurl
    rw [Text.toNat_ofUInt8] at this
    omega
  have hend : runEnd bytes i = i := by
    rw [runEnd, dif_pos hi, if_neg (by simp [hbyte])]
  rw [step, afterBrace?, after?_of_le hi h (by decide), after?_of_le hi h (by decide), readRun?,
    if_neg (by simp [hend])]
  rfl

/-- A character beyond ASCII is passed over byte by byte. -/
theorem tokensFrom_add {bytes : Array UInt8} {n i : Nat}
    (h : ∀ k < n, ∃ b, bytes[i + k]? = some b ∧ 128 ≤ b.toNat) :
    tokensFrom bytes i = tokensFrom bytes (i + n) := by
  induction n generalizing i with
  | zero => rfl
  | succ n ih =>
    obtain ⟨b, hb, hle⟩ := h 0 (by omega)
    obtain ⟨hi, rfl⟩ := Array.getElem?_eq_some_iff.mp hb
    rw [Nat.add_zero] at hi
    rw [tokensFrom, if_pos hi, step_of_le hi hle]
    simp only [Option.toList_none, List.nil_append]
    rw [ih, Nat.add_assoc, Nat.add_comm 1 n]
    intro k hk
    simpa [Nat.add_assoc, Nat.add_comm 1 k] using h (k + 1) (by omega)

/-- No token starts amid a run, or right behind the brace that opens one. -/
def StartsFresh (before rest : List Char) : Prop :=
  ∀ c, rest.head? = some c → isUrlChar c = true →
    endsInUrlChar before = false ∧ before.getLast? ≠ some '{'

theorem isUrlChar_eq_false_of_mem_opening {kind : Token.Kind} {front : List Char}
    (h : Opening kind front) : ∀ c ∈ front, isUrlChar c = false := by
  have hall : front.all (fun c => !isUrlChar c) = true := by cases h <;> decide
  simpa using hall

/-- A run behind its opening starts afresh, and is of the kind that the opening says. -/
theorem kind_of_opening {kind : Token.Kind} {front chars after : List Char}
    (hfront : Opening kind front) (hne : chars ≠ []) (hchars : ∀ c ∈ chars, isUrlChar c = true)
    (hfresh : StartsFresh before (front ++ (chars ++ after))) :
    endsInUrlChar (before ++ front) = false ∧
      UrlRun.kind ⟨before ++ front, chars, after⟩ = kind := by
  cases hfront with
  | literal =>
    obtain ⟨c, cs, rfl⟩ := List.exists_cons_of_ne_nil hne
    obtain ⟨hends, hbrace⟩ := hfresh c rfl (hchars c (by simp))
    rw [List.append_nil]
    exact ⟨hends, if_neg hbrace⟩
  | brace => exact ⟨by rw [endsInUrlChar_concat]; decide, if_pos (by simp)⟩
  | slashBrace =>
    rw [show before ++ ['/', '{'] = (before ++ ['/']) ++ ['{'] by simp]
    exact ⟨by rw [endsInUrlChar_concat]; decide, if_pos (by simp)⟩

theorem startsFresh_concat {c : Char} {cs : List Char} (hc : isUrlChar c = false)
    (hbrace : c = '{' → ∀ d, cs.head? = some d → isUrlChar d = false) :
    StartsFresh (before ++ [c]) cs := by
  intro d hd hurl
  rw [endsInUrlChar_concat, List.getLast?_concat]
  refine ⟨hc, fun h => ?_⟩
  rw [hbrace (Option.some.inj h) d hd] at hurl
  exact Bool.false_ne_true hurl

theorem startsFresh_append_close {close after : List Char}
    (hclose : close = [] ∨ close = ['}'] ∨ close = ['/'])
    (hafter : ∀ c, (close ++ after).head? = some c → isUrlChar c = false) :
    StartsFresh (before ++ close) after := by
  rcases hclose with rfl | rfl | rfl
  · intro c hc hurl
    rw [hafter c hc] at hurl
    exact absurd hurl Bool.false_ne_true
  · exact startsFresh_concat (by decide) fun h => absurd h (by decide)
  · exact startsFresh_concat (by decide) fun h => absurd h (by decide)

/-- The bytes behind the first one of a character beyond ASCII. -/
theorem tokensFrom_concat {c : Char} {cs : List Char} (h : text.toList = before ++ c :: cs) :
    tokensFrom (Text.bytes text) (Text.byteSize before + 1) =
      tokensFrom (Text.bytes text) (Text.byteSize (before ++ [c])) := by
  by_cases hc : c.toNat < 128
  · rw [byteSize_concat hc]
  · have hsize : Text.byteSize (before ++ [c]) = Text.byteSize before + 1 + (c.utf8Size - 1) := by
      have := c.utf8Size_pos
      simp only [Text.byteSize_append, Text.byteSize]
      omega
    rw [hsize]
    apply tokensFrom_add
    intro k hk
    have hlt : 1 + k < (String.utf8EncodeChar c).length := by
      rw [String.length_utf8EncodeChar]
      omega
    refine ⟨(String.utf8EncodeChar c)[1 + k], ?_,
      Text.le_toNat_of_mem_utf8EncodeChar hc (List.getElem_mem hlt)⟩
    rw [Nat.add_assoc, ← Array.getElem?_toList, ← List.getElem?_drop, drop_bytes h,
      List.flatMap_cons, List.getElem?_append_left hlt, List.getElem?_eq_getElem hlt]

/-- The tokens that are read from a character boundary on are those of the runs from there on. -/
theorem tokensFrom_eq_map_token (h : text.toList = before ++ rest)
    (hfresh : StartsFresh before rest) :
    tokensFrom (Text.bytes text) (Text.byteSize before) =
      (runsFrom before rest).map UrlRun.token := by
  -- a step may read many characters, so the induction is on the number of those ahead
  induction hn : rest.length using Nat.strongRecOn generalizing before rest with
  | ind n ih =>
  subst hn
  by_cases hne : rest = []
  · subst hne
    rw [tokensFrom, if_neg (by simp [Text.size_bytes, h])]
    rfl
  · have hi : Text.byteSize before < (Text.bytes text).size := by
      have := Text.byteSize_pos hne
      rw [Text.size_bytes, h, Text.byteSize_append]
      omega
    have hread := reading_step h hne
    rw [tokensFrom, if_pos hi]
    generalize step (Text.bytes text) (Text.byteSize before) = s at hread
    cases hread with
    | @run kind front chars close after hfront hchars hurl hclose hafter =>
      obtain ⟨hends, hkind⟩ := kind_of_opening hfront hchars hurl hfresh
      have hclose' : ∀ c ∈ close, isUrlChar c = false := by
        have hall : close.all (fun c => !isUrlChar c) = true := by
          rcases hclose with rfl | rfl | rfl <;> decide
        simpa using hall
      have hpos := List.length_pos_iff.mpr hchars
      have htext : text.toList = (before ++ front ++ chars ++ close) ++ after := by simpa using h
      have hrest := ih after.length (by simp only [List.length_append]; omega) htext
        (startsFresh_append_close hclose hafter) rfl
      simp only [Option.toList_some, List.singleton_append]
      rw [hrest, runsFrom_append_of_not_isUrlChar (isUrlChar_eq_false_of_mem_opening hfront),
        runsFrom_run hends hchars hurl hafter, runsFrom_append_of_not_isUrlChar hclose',
        List.map_cons, UrlRun.token, hkind]
    | @pass c cs hc hbrace =>
      have htext : text.toList = (before ++ [c]) ++ cs := by simpa using h
      have hrest := ih cs.length (by simp) htext (startsFresh_concat hc hbrace) rfl
      simp only [Option.toList_none, List.nil_append]
      rw [tokensFrom_concat h, hrest, runsFrom_of_not_isUrlChar hc]

theorem tokens_eq_map_token (text : String) :
    tokens text = (runs text.toList).map UrlRun.token := by
  have htext : text.toList = [] ++ text.toList := (List.nil_append _).symm
  exact tokensFrom_eq_map_token htext fun _ _ _ => by simp [endsInUrlChar]

/-! ## Segments -/

/-- The token of a maximal run is cut out of the text as it stands. -/
theorem ofToken?_token {run : UrlRun} (h : run.IsMaximal text.toList) :
    Segment.ofToken? text run.token = some run.segment := by
  have hslice : Text.slice? text run.token.start run.token.stop =
      some (String.ofList run.chars) := by
    rw [Text.slice?_eq_some_iff]
    refine ⟨run.before, run.after, ?_, rfl, ?_⟩
    · rw [String.toList_ofList, h.eq_append]
    · rw [String.toList_ofList]
      exact (Text.byteSize_append run.before run.chars).symm
  rw [Segment.ofToken?, hslice, Option.map_some]
  rfl

/-- A text compiles to the segments of its runs. -/
theorem compile_eq_map_segment (text : String) :
    Segment.compile text = (runs text.toList).map UrlRun.segment := by
  rw [Segment.compile, tokens_eq_map_token, List.filterMap_map]
  exact List.filterMap_eq_map_iff_forall_eq_some.mpr fun _ hrun =>
    ofToken?_token (mem_runs_iff.mp hrun)

theorem exists_isMaximal_of_mem_compile {segment : Segment} (h : segment ∈ Segment.compile text) :
    ∃ run : UrlRun, run.IsMaximal text.toList ∧ run.segment = segment := by
  rw [compile_eq_map_segment] at h
  obtain ⟨run, hrun, hsegment⟩ := List.mem_map.mp h
  exact ⟨run, mem_runs_iff.mp hrun, hsegment⟩

/-- **A text compiles to one segment for each maximal run of URL characters**, in the order of
the text, and to nothing else. -/
theorem compile_eq_segments_of_maximal_runs (text : String) :
    ∃ runs : List UrlRun, (∀ run, run ∈ runs ↔ run.IsMaximal text.toList) ∧
      runs.Pairwise (fun run later => run.before.length < later.before.length) ∧
      Segment.compile text = runs.map UrlRun.segment :=
  ⟨runs text.toList, fun _ => mem_runs_iff, pairwise_runs _, compile_eq_map_segment text⟩

/-- Braces that are doubled, empty or never closed write nothing by themselves. -/
example : Segment.compile r"/{{a/{/é}b{}c{d" =
    [.placeholder ⟨"a", .untyped, false⟩, .literal "b", .literal "c",
      .placeholder ⟨"d", .untyped, false⟩] := by
  decide +kernel

end PathRouting.Pattern
