import PathRouting.Text.Bytes

/-!
# Tokens of a pattern

The text of a pattern is read byte by byte. A token is a run of URL bytes: a placeholder, if an
opening brace stands before it, and a literal otherwise. Whatever starts no token is passed
over, so that a brace which is never closed ends with its part of the path.

`step` reads at one position and says where to read on (`step_cases`), always further along
(`lt_step_next`), and `tokens` repeats it to the end of the text.
-/

namespace PathRouting.Pattern

/-- An ASCII letter or digit, or one of the marks that stand for themselves in a URL. -/
def isUrlChar (c : Char) : Bool :=
  c.isAlphanum || "-_.~:?#[]@!$&'()*+,;=".toList.contains c

/-- The byte of a URL character. No byte of a character beyond ASCII is one. -/
def isUrlByte (b : UInt8) : Bool :=
  isUrlChar (Char.ofUInt8 b)

/-- What a token stands for. -/
inductive Token.Kind where
  | literal
  | placeholder
  deriving DecidableEq, Repr

/-- A token: its kind, and the bytes of the text between which it stands. -/
structure Token where
  kind : Token.Kind
  start : Nat
  stop : Nat
  deriving DecidableEq, Repr

/-- The reading at one position: the token found there, if any, and the position to read on
from. -/
structure Step where
  token? : Option Token
  next : Nat
  deriving DecidableEq, Repr

/-! ## Reading at a position -/

/-- Where the run of URL bytes ends that starts at position `i`. -/
def runEnd (bytes : Array UInt8) (i : Nat) : Nat :=
  if h : i < bytes.size then
    if isUrlByte bytes[i] then runEnd bytes (i + 1) else i
  else
    i
termination_by bytes.size - i

/-- The position after the character `c`, if it stands at position `i`. -/
def after? (c : Char) (bytes : Array UInt8) (i : Nat) : Option Nat :=
  if bytes[i]? = some c.toUInt8 then some (i + 1) else none

/-- The position after an opening brace that stands at position `i`, by itself or behind a
slash. -/
def afterBrace? (bytes : Array UInt8) (i : Nat) : Option Nat :=
  (after? '{' bytes i).or ((after? '/' bytes i).bind (after? '{' bytes))

/-- Reads the run of URL bytes that starts at `start` as a token, with the character `c` behind
it if there is one. An empty run is no token. -/
def readRun? (kind : Token.Kind) (c : Char) (bytes : Array UInt8) (start : Nat) : Option Step :=
  if start < runEnd bytes start then
    some
      { token? := some ⟨kind, start, runEnd bytes start⟩
        next := (after? c bytes (runEnd bytes start)).getD (runEnd bytes start) }
  else
    none

/-- Reads a placeholder with its braces, else a literal with the slash behind it, and else
passes over one byte. -/
def step (bytes : Array UInt8) (i : Nat) : Step :=
  (((afterBrace? bytes i).bind (readRun? .placeholder '}' bytes)).or
    (readRun? .literal '/' bytes i)).getD ⟨none, i + 1⟩

/-- The run that starts at a position holds the URL bytes up to the first other byte. -/
theorem runEnd_eq (bytes : Array UInt8) (i : Nat) :
    runEnd bytes i = i + ((bytes.toList.drop i).takeWhile isUrlByte).length := by
  fun_induction runEnd bytes i with
  | case1 i h hb ih =>
    have hl : i < bytes.toList.length := by simpa using h
    rw [ih, List.drop_eq_getElem_cons hl, Array.getElem_toList, List.takeWhile_cons_of_pos hb,
      List.length_cons]
    omega
  | case2 i h hb =>
    have hl : i < bytes.toList.length := by simpa using h
    rw [List.drop_eq_getElem_cons hl, Array.getElem_toList, List.takeWhile_cons_of_neg hb]
    rfl
  | case3 i h =>
    rw [List.drop_eq_nil_of_le (by simpa using h)]
    rfl

/-! ## Reading to the end -/

theorem lt_of_after? {c : Char} {bytes : Array UInt8} {i j : Nat} (h : after? c bytes i = some j) :
    i < j := by
  unfold after? at h
  split at h <;> grind

theorem lt_of_afterBrace? {bytes : Array UInt8} {i start : Nat}
    (h : afterBrace? bytes i = some start) : i < start := by
  rw [afterBrace?, Option.or_eq_some_iff] at h
  rcases h with h | ⟨-, h⟩
  · exact lt_of_after? h
  · obtain ⟨j, hj, h⟩ := Option.bind_eq_some_iff.mp h
    exact Nat.lt_trans (lt_of_after? hj) (lt_of_after? h)

/-- A run that is read is not empty. It is the token, and reading goes on at its end or behind the
character there. -/
theorem readRun?_eq_some {kind : Token.Kind} {c : Char} {bytes : Array UInt8} {start : Nat}
    {s : Step} (h : readRun? kind c bytes start = some s) :
    start < runEnd bytes start ∧ s.token? = some ⟨kind, start, runEnd bytes start⟩ ∧
      (s.next = runEnd bytes start ∨ after? c bytes (runEnd bytes start) = some s.next) := by
  rw [readRun?, Option.ite_none_right_eq_some] at h
  obtain ⟨hlt, h⟩ := h
  obtain rfl := Option.some.inj h
  refine ⟨hlt, rfl, ?_⟩
  cases after? c bytes (runEnd bytes start) with
  | none => exact .inl rfl
  | some j => exact .inr rfl

theorem lt_of_readRun? {kind : Token.Kind} {c : Char} {bytes : Array UInt8} {start : Nat}
    {s : Step} (h : readRun? kind c bytes start = some s) : start < s.next := by
  obtain ⟨hlt, -, hnext | hnext⟩ := readRun?_eq_some h
  · rw [hnext]
    exact hlt
  · exact Nat.lt_trans hlt (lt_of_after? hnext)

/-- The positions at which a step at position `i` may look for a run: behind an opening brace, and
at `i` itself. -/
def runStarts (bytes : Array UInt8) (i : Nat) : List Nat :=
  (afterBrace? bytes i).toList ++ [i]

theorem mem_runStarts_iff {bytes : Array UInt8} {i start : Nat} :
    start ∈ runStarts bytes i ↔ afterBrace? bytes i = some start ∨ start = i := by
  rw [runStarts, List.mem_append, Option.mem_toList, List.mem_singleton]

/-- A step reads a run at one of the positions where it looks for one, or passes over one byte. -/
theorem step_cases (bytes : Array UInt8) (i : Nat) :
    (∃ kind c, ∃ start ∈ runStarts bytes i, readRun? kind c bytes start = some (step bytes i)) ∨
      step bytes i = ⟨none, i + 1⟩ := by
  rw [step]
  cases hplaceholder : (afterBrace? bytes i).bind (readRun? .placeholder '}' bytes) with
  | some s =>
    obtain ⟨start, hstart, hread⟩ := Option.bind_eq_some_iff.mp hplaceholder
    exact .inl ⟨.placeholder, '}', start, mem_runStarts_iff.mpr (.inl hstart), hread⟩
  | none =>
    cases hliteral : readRun? .literal '/' bytes i with
    | some s => exact .inl ⟨.literal, '/', i, mem_runStarts_iff.mpr (.inr rfl), hliteral⟩
    | none => exact .inr rfl

/-- Reading goes on further along. -/
theorem lt_step_next (bytes : Array UInt8) (i : Nat) : i < (step bytes i).next := by
  rcases step_cases bytes i with ⟨kind, c, start, hstart, hread⟩ | hpass
  · have hle : i ≤ start := by
      rcases mem_runStarts_iff.mp hstart with h | rfl
      · exact Nat.le_of_lt (lt_of_afterBrace? h)
      · exact Nat.le_refl _
    exact Nat.lt_of_le_of_lt hle (lt_of_readRun? hread)
  · rw [hpass]
    exact Nat.lt_succ_self i

/-- The tokens from position `i` on. -/
def tokensFrom (bytes : Array UInt8) (i : Nat) : List Token :=
  if i < bytes.size then
    let s := step bytes i
    s.token?.toList ++ tokensFrom bytes s.next
  else
    []
termination_by bytes.size - i
decreasing_by
  have := lt_step_next bytes i
  omega

/-- The tokens of a text, in order. -/
def tokens (text : String) : List Token :=
  tokensFrom (Text.bytes text) 0

end PathRouting.Pattern
