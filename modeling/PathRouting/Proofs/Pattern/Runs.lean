import PathRouting.Pattern.Basic

/-!
# Runs of URL characters

All other characters cut a text into runs of URL characters. A run is maximal if no URL
character stands right before or right after it. `runs` lists the maximal runs of a text from
the front (`pairwise_runs`), and nothing else (`mem_runs_iff`).

The character before a run says what it is written for: a placeholder behind an opening brace,
a literal otherwise.
-/

namespace PathRouting.Pattern

/-- Characters of a text, with the characters before and after them. -/
structure UrlRun where
  before : List Char
  chars : List Char
  after : List Char
  deriving DecidableEq, Repr

namespace UrlRun

/-- A run is maximal in a text if it is not empty, holds URL characters only, and has none right
before or right after it. -/
structure IsMaximal (run : UrlRun) (text : List Char) : Prop where
  eq_append : text = run.before ++ (run.chars ++ run.after)
  chars_ne_nil : run.chars ≠ []
  isUrlChar_of_mem : ∀ c ∈ run.chars, isUrlChar c = true
  before_end : ∀ c, run.before.getLast? = some c → isUrlChar c = false
  after_start : ∀ c, run.after.head? = some c → isUrlChar c = false

/-- What a run is a token of: of a placeholder, if an opening brace stands right before it. -/
def kind (run : UrlRun) : Token.Kind :=
  if run.before.getLast? = some '{' then .placeholder else .literal

/-- The token of a run. -/
def token (run : UrlRun) : Token :=
  ⟨run.kind, Text.byteSize run.before, Text.byteSize (run.before ++ run.chars)⟩

/-- The segment that a run is written for. -/
def segment (run : UrlRun) : Segment :=
  match run.kind with
  | .literal => .literal (String.ofList run.chars)
  | .placeholder => .placeholder (.ofSpec (String.ofList run.chars))

end UrlRun

/-- Whether a URL character stands at the end. -/
def endsInUrlChar (before : List Char) : Bool :=
  before.getLast?.any isUrlChar

/-- The runs that start in `rest`, where `before` are the characters passed. A run starts at a
URL character with none before it. -/
def runsFrom (before : List Char) : List Char → List UrlRun
  | [] => []
  | c :: cs =>
    if isUrlChar c ∧ ¬ endsInUrlChar before then
      ⟨before, (c :: cs).takeWhile isUrlChar, (c :: cs).dropWhile isUrlChar⟩ ::
        runsFrom (before ++ [c]) cs
    else
      runsFrom (before ++ [c]) cs

/-- The maximal runs of URL characters in a text, in order. -/
def runs (text : List Char) : List UrlRun :=
  runsFrom [] text

theorem endsInUrlChar_eq_false_iff {before : List Char} :
    endsInUrlChar before = false ↔ ∀ c, before.getLast? = some c → isUrlChar c = false := by
  cases h : before.getLast? <;> simp [endsInUrlChar, h]

theorem endsInUrlChar_concat (before : List Char) (c : Char) :
    endsInUrlChar (before ++ [c]) = isUrlChar c := by
  simp [endsInUrlChar]

/-! ## Reading runs from the front -/

theorem runsFrom_of_not_isUrlChar {c : Char} (h : isUrlChar c = false) (before cs : List Char) :
    runsFrom before (c :: cs) = runsFrom (before ++ [c]) cs := by
  rw [runsFrom, if_neg (by simp [h])]

theorem runsFrom_append_of_not_isUrlChar {front : List Char}
    (h : ∀ c ∈ front, isUrlChar c = false) (before rest : List Char) :
    runsFrom before (front ++ rest) = runsFrom (before ++ front) rest := by
  induction front generalizing before with
  | nil => simp
  | cons c front ih =>
    rw [List.cons_append, runsFrom_of_not_isUrlChar (h c (by simp)),
      ih (fun d hd => h d (by simp [hd]))]
    simp

/-- No run starts inside a run. -/
theorem runsFrom_append {before : List Char} (hbefore : endsInUrlChar before) {chars : List Char}
    (h : ∀ c ∈ chars, isUrlChar c = true) (after : List Char) :
    runsFrom before (chars ++ after) = runsFrom (before ++ chars) after := by
  induction chars generalizing before with
  | nil => simp
  | cons c chars ih =>
    have hc : isUrlChar c = true := h c (by simp)
    rw [List.cons_append, runsFrom, if_neg (by simp [hbefore]),
      ih (by rw [endsInUrlChar_concat, hc]) fun d hd => h d (by simp [hd])]
    simp

theorem takeWhile_append_of_maximal {chars after : List Char}
    (h : ∀ c ∈ chars, isUrlChar c = true)
    (hafter : ∀ c, after.head? = some c → isUrlChar c = false) :
    (chars ++ after).takeWhile isUrlChar = chars := by
  rw [List.takeWhile_append_of_pos h]
  cases after with
  | nil => simp
  | cons c after => rw [List.takeWhile_cons_of_neg (by simp [hafter c rfl]), List.append_nil]

theorem dropWhile_append_of_maximal {chars after : List Char}
    (h : ∀ c ∈ chars, isUrlChar c = true)
    (hafter : ∀ c, after.head? = some c → isUrlChar c = false) :
    (chars ++ after).dropWhile isUrlChar = after := by
  rw [List.dropWhile_append_of_pos h]
  cases after with
  | nil => rfl
  | cons c after => rw [List.dropWhile_cons_of_neg (by simp [hafter c rfl])]

/-- A run at the front is read as a whole. -/
theorem runsFrom_run {before chars after : List Char} (hbefore : endsInUrlChar before = false)
    (hne : chars ≠ []) (h : ∀ c ∈ chars, isUrlChar c = true)
    (hafter : ∀ c, after.head? = some c → isUrlChar c = false) :
    runsFrom before (chars ++ after) =
      ⟨before, chars, after⟩ :: runsFrom (before ++ chars) after := by
  obtain ⟨c, cs, rfl⟩ := List.exists_cons_of_ne_nil hne
  have hc : isUrlChar c = true := h c (by simp)
  have htake := takeWhile_append_of_maximal h hafter
  have hdrop := dropWhile_append_of_maximal h hafter
  rw [List.cons_append] at htake hdrop ⊢
  rw [runsFrom, if_pos (by simp [hc, hbefore]), htake, hdrop,
    runsFrom_append (by rw [endsInUrlChar_concat, hc]) fun d hd => h d (by simp [hd])]
  simp

/-- No run starts only where there is no URL character. -/
theorem runsFrom_eq_nil_iff {before rest : List Char} (hbefore : endsInUrlChar before = false) :
    runsFrom before rest = [] ↔ ∀ c ∈ rest, isUrlChar c = false := by
  induction rest generalizing before with
  | nil => simp [runsFrom]
  | cons c cs ih =>
    by_cases hc : isUrlChar c = true
    · rw [runsFrom, if_pos ⟨hc, by simp [hbefore]⟩]
      simp [hc]
    · rw [Bool.not_eq_true] at hc
      rw [runsFrom_of_not_isUrlChar hc, ih (by rw [endsInUrlChar_concat, hc]),
        List.forall_mem_cons, and_iff_right hc]

/-! ## The runs are the maximal ones -/

/-- The only run that can start behind `before` is the one that reads on as far as it can. -/
theorem isMaximal_at_iff {run : UrlRun} {before : List Char} {c : Char} {cs : List Char} :
    (run.IsMaximal (before ++ c :: cs) ∧ run.before.length = before.length) ↔
      (isUrlChar c ∧ ¬ endsInUrlChar before) ∧
        run = ⟨before, (c :: cs).takeWhile isUrlChar, (c :: cs).dropWhile isUrlChar⟩ := by
  constructor
  · rintro ⟨h, hlen⟩
    obtain ⟨hbefore, hrest⟩ := List.append_inj h.eq_append hlen.symm
    have htake := takeWhile_append_of_maximal h.isUrlChar_of_mem h.after_start
    have hdrop := dropWhile_append_of_maximal h.isUrlChar_of_mem h.after_start
    rw [← hrest] at htake hdrop
    refine ⟨⟨?_, ?_⟩, ?_⟩
    · obtain ⟨d, ds, hd⟩ := List.exists_cons_of_ne_nil h.chars_ne_nil
      rw [hd, List.cons_append] at hrest
      rw [(List.cons.inj hrest).1]
      exact h.isUrlChar_of_mem d (by simp [hd])
    · rw [hbefore, endsInUrlChar_eq_false_iff.mpr h.before_end]
      exact Bool.false_ne_true
    · rw [htake, hdrop, hbefore]
  · rintro ⟨⟨hc, hbefore⟩, rfl⟩
    refine ⟨⟨by simp, ?_, ?_, ?_, ?_⟩, rfl⟩
    · rw [List.takeWhile_cons_of_pos hc]
      exact List.cons_ne_nil _ _
    · exact fun d hd => List.all_eq_true.mp (List.all_takeWhile) d hd
    · exact endsInUrlChar_eq_false_iff.mp (Bool.eq_false_iff.mpr hbefore)
    · intro d hd
      have := List.head?_dropWhile_not isUrlChar (c :: cs)
      simp_all

/-- The runs that start in `rest` are the maximal runs of the whole text that start there. -/
theorem mem_runsFrom_iff {run : UrlRun} {before rest : List Char} :
    run ∈ runsFrom before rest ↔
      run.IsMaximal (before ++ rest) ∧ before.length ≤ run.before.length := by
  induction rest generalizing before with
  | nil =>
    simp only [runsFrom, List.not_mem_nil, false_iff, not_and, Nat.not_le]
    intro h
    have hlen := congrArg List.length h.eq_append
    have hpos := List.length_pos_iff.mpr h.chars_ne_nil
    simp only [List.length_append, List.length_nil] at hlen
    omega
  | cons c cs ih =>
    -- a run starts right here or further along
    have hsplit : (run.IsMaximal (before ++ c :: cs) ∧ before.length ≤ run.before.length) ↔
        (run.IsMaximal (before ++ c :: cs) ∧ run.before.length = before.length) ∨
          run ∈ runsFrom (before ++ [c]) cs := by
      rw [ih, List.append_assoc, List.singleton_append, ← and_or_left, List.length_append,
        List.length_singleton]
      exact and_congr_right fun _ => by omega
    rw [hsplit, isMaximal_at_iff, runsFrom]
    split
    case isTrue h => rw [List.mem_cons, and_iff_right h]
    case isFalse h => rw [or_iff_right fun hstart => h hstart.1]

theorem mem_runs_iff {run : UrlRun} {text : List Char} :
    run ∈ runs text ↔ run.IsMaximal text := by
  simp [runs, mem_runsFrom_iff]

theorem pairwise_runsFrom (before rest : List Char) :
    (runsFrom before rest).Pairwise fun run later => run.before.length < later.before.length := by
  induction rest generalizing before with
  | nil => exact .nil
  | cons c cs ih =>
    rw [runsFrom]
    split
    case isTrue =>
      refine .cons (fun later hlater => ?_) (ih _)
      have hle := (mem_runsFrom_iff.mp hlater).2
      rw [List.length_append, List.length_singleton] at hle
      exact hle
    case isFalse => exact ih _

/-- **Each run starts behind the one before it in the list.** -/
theorem pairwise_runs (text : List Char) :
    (runs text).Pairwise fun run later => run.before.length < later.before.length :=
  pairwise_runsFrom [] text

end PathRouting.Pattern
