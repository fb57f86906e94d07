import Mathlib.Data.Nat.Find
import Mathlib.Logic.Function.Iterate
import PathRouting.Proofs.Pattern.Reading
import PathRouting.Proofs.Text.Boundaries

/-!
# Reading comes to an end

A step looks for runs within the bytes only and goes on further along, but never beyond the end
(`le_of_mem_runStarts`, `next_step_le`). So after at most one step for each byte a text has been
read to its end, and the tokens found on the way are the tokens of the text
(`Progress.exists_after_eq`).

A position may stand amid a character, since a character beyond ASCII is passed over byte by byte.
A token does not: its bytes are those of a run, so that each token becomes a segment when the text
is compiled (`map_ofToken?_tokens`). Nor is a placeholder cut amid a character
(`Placeholder.ofSpec_eq`).
-/

namespace PathRouting

namespace Pattern

variable {bytes : Array UInt8} {i start : Nat}

/-! ## One step -/

theorem le_runEnd (bytes : Array UInt8) (i : Nat) : i ≤ runEnd bytes i := by
  rw [runEnd_eq]
  exact Nat.le_add_right _ _

theorem runEnd_le (h : i ≤ bytes.size) : runEnd bytes i ≤ bytes.size := by
  have hlen : ((bytes.toList.drop i).takeWhile isUrlByte).length ≤ bytes.size - i := by
    rw [← Array.length_toList, ← List.length_drop]
    exact (List.takeWhile_prefix _).length_le
  rw [runEnd_eq]
  omega

theorem le_of_after? {c : Char} {j : Nat} (h : after? c bytes i = some j) : j ≤ bytes.size := by
  rw [after?, Option.ite_none_right_eq_some] at h
  obtain ⟨hi, -⟩ := Array.getElem?_eq_some_iff.mp h.1
  obtain rfl := Option.some.inj h.2
  exact hi

theorem le_of_afterBrace? (h : afterBrace? bytes i = some start) : start ≤ bytes.size := by
  rw [afterBrace?, Option.or_eq_some_iff] at h
  rcases h with h | ⟨-, h⟩
  · exact le_of_after? h
  · obtain ⟨j, -, h⟩ := Option.bind_eq_some_iff.mp h
    exact le_of_after? h

/-- A run is looked for within the bytes, also if the opening brace is the last of them. -/
theorem le_of_mem_runStarts (hi : i ≤ bytes.size) (h : start ∈ runStarts bytes i) :
    start ≤ bytes.size := by
  rcases mem_runStarts_iff.mp h with h | rfl
  · exact le_of_afterBrace? h
  · exact hi

/-- Reading does not go on beyond the end. -/
theorem next_step_le (hi : i < bytes.size) : (step bytes i).next ≤ bytes.size := by
  rcases step_cases bytes i with ⟨kind, c, start, hstart, hread⟩ | hpass
  · obtain ⟨-, -, hnext | hnext⟩ := readRun?_eq_some hread
    · rw [hnext]
      exact runEnd_le (le_of_mem_runStarts (Nat.le_of_lt hi) hstart)
    · exact le_of_after? hnext
  · rw [hpass]
    exact hi

/-- A token is a run, not empty, at one of the positions where a run is looked for. -/
theorem eq_runEnd_of_token?_step {token : Token} (h : (step bytes i).token? = some token) :
    token.start ∈ runStarts bytes i ∧ token.stop = runEnd bytes token.start ∧
      token.start < token.stop := by
  rcases step_cases bytes i with ⟨kind, c, start, hstart, hread⟩ | hpass
  · obtain ⟨hlt, htoken, -⟩ := readRun?_eq_some hread
    obtain rfl := Option.some.inj (h.symm.trans htoken)
    exact ⟨hstart, rfl, hlt⟩
  · rw [hpass] at h
    cases h

/-! ## Step after step -/

/-- How far bytes have been read: the position to read on from, and the tokens found so far. -/
@[ext] structure Progress where
  position : Nat
  tokens : List Token
  deriving DecidableEq, Repr

namespace Progress

/-- Reads on by one step. At the end nothing is left to read. -/
def advance (bytes : Array UInt8) (progress : Progress) : Progress :=
  if progress.position < bytes.size then
    { position := (step bytes progress.position).next
      tokens := progress.tokens ++ (step bytes progress.position).token?.toList }
  else
    progress

/-- How far `n` steps from the start lead. -/
def after (bytes : Array UInt8) (n : Nat) : Progress :=
  (advance bytes)^[n] ⟨0, []⟩

variable {n : Nat}

theorem after_succ (bytes : Array UInt8) (n : Nat) :
    after bytes (n + 1) = advance bytes (after bytes n) :=
  Function.iterate_succ_apply' _ _ _

theorem after_succ_of_lt (h : (after bytes n).position < bytes.size) :
    after bytes (n + 1) =
      ⟨(step bytes (after bytes n).position).next,
        (after bytes n).tokens ++ (step bytes (after bytes n).position).token?.toList⟩ := by
  rw [after_succ, advance, if_pos h]

theorem after_succ_of_not_lt (h : ¬ (after bytes n).position < bytes.size) :
    after bytes (n + 1) = after bytes n := by
  rw [after_succ, advance, if_neg h]

theorem position_after_le (bytes : Array UInt8) (n : Nat) :
    (after bytes n).position ≤ bytes.size := by
  induction n with
  | zero => exact Nat.zero_le _
  | succ n ih =>
    by_cases h : (after bytes n).position < bytes.size
    · rw [after_succ_of_lt h]
      exact next_step_le h
    · rw [after_succ_of_not_lt h]
      exact ih

/-- Each step reads at least one byte, as long as there is one. -/
theorem min_le_position_after (bytes : Array UInt8) (n : Nat) :
    min n bytes.size ≤ (after bytes n).position := by
  induction n with
  | zero => exact Nat.min_le_left _ _
  | succ n ih =>
    by_cases h : (after bytes n).position < bytes.size
    · have hlt := lt_step_next bytes (after bytes n).position
      rw [after_succ_of_lt h]
      show min (n + 1) bytes.size ≤ (step bytes (after bytes n).position).next
      omega
    · rw [after_succ_of_not_lt h]
      omega

/-- The invariant of reading: the tokens found so far and those ahead are all tokens. -/
theorem tokens_append_tokensFrom (bytes : Array UInt8) (n : Nat) :
    (after bytes n).tokens ++ tokensFrom bytes (after bytes n).position = tokensFrom bytes 0 := by
  induction n with
  | zero => rfl
  | succ n ih =>
    by_cases h : (after bytes n).position < bytes.size
    · rw [after_succ_of_lt h, ← ih, tokensFrom.eq_1 bytes (after bytes n).position, if_pos h,
        List.append_assoc]
    · rw [after_succ_of_not_lt h, ih]

/-- A token that a step finds is one of the tokens. -/
theorem mem_tokensFrom_of_token?_step {token : Token} (h : (after bytes n).position < bytes.size)
    (htoken : (step bytes (after bytes n).position).token? = some token) :
    token ∈ tokensFrom bytes 0 := by
  rw [← tokens_append_tokensFrom bytes (n + 1), after_succ_of_lt h]
  simp [htoken]

/-- At the end all tokens have been found. -/
theorem after_eq_of_not_lt (h : ¬ (after bytes n).position < bytes.size) :
    after bytes n = ⟨bytes.size, tokensFrom bytes 0⟩ := by
  have hposition : (after bytes n).position = bytes.size :=
    Nat.le_antisymm (position_after_le bytes n) (Nat.le_of_not_lt h)
  have htokens := tokens_append_tokensFrom bytes n
  rw [tokensFrom, if_neg h, List.append_nil] at htokens
  exact Progress.ext hposition htokens

/-- Some number of steps, at most one for each byte, leads to the end. -/
theorem exists_after_eq (bytes : Array UInt8) :
    ∃ n ≤ bytes.size, (∀ m < n, (after bytes m).position < bytes.size) ∧
      after bytes n = ⟨bytes.size, tokensFrom bytes 0⟩ := by
  have hend : ¬ (after bytes bytes.size).position < bytes.size := by
    have hle := min_le_position_after bytes bytes.size
    omega
  have hex : ∃ n, ¬ (after bytes n).position < bytes.size := ⟨_, hend⟩
  exact ⟨Nat.find hex, Nat.find_min' hex hend,
    fun m hm => Decidable.not_not.mp (Nat.find_min hex hm), after_eq_of_not_lt (Nat.find_spec hex)⟩

end Progress

/-! ## Tokens as slices -/

variable {text : String}

/-- Each token becomes a segment. -/
theorem map_ofToken?_tokens (text : String) :
    (tokens text).map (Segment.ofToken? text) = (Segment.compile text).map some := by
  rw [tokens_eq_map_token, compile_eq_map_segment, List.map_map, List.map_map]
  exact List.map_congr_left fun run hrun => ofToken?_token (mem_runs_iff.mp hrun)

theorem isSome_slice?_of_mem_tokens {token : Token} (h : token ∈ tokens text) :
    (Text.slice? text token.start token.stop).isSome := by
  have hmem : Segment.ofToken? text token ∈ (Segment.compile text).map some := by
    rw [← map_ofToken?_tokens]
    exact List.mem_map_of_mem h
  obtain ⟨segment, -, hsegment⟩ := List.mem_map.mp hmem
  obtain ⟨part, hpart, -⟩ := Option.map_eq_some_iff.mp hsegment.symm
  rw [hpart]
  rfl

/-- What the step at position `i` of a text asks for is within the text: the runs that it looks for,
and a token that it finds, which is not empty and stands between character boundaries. -/
structure ReadsWithin (text : String) (i : Nat) : Prop where
  run : ∀ start ∈ runStarts (Text.bytes text) i, start ≤ (Text.bytes text).size ∧
    start ≤ runEnd (Text.bytes text) start ∧
    runEnd (Text.bytes text) start ≤ (Text.bytes text).size
  token : ∀ token, (step (Text.bytes text) i).token? = some token →
    token.start ∈ runStarts (Text.bytes text) i ∧
    token.stop = runEnd (Text.bytes text) token.start ∧ token.start < token.stop ∧
    (⟨token.start⟩ : String.Pos.Raw).IsValid text ∧ (⟨token.stop⟩ : String.Pos.Raw).IsValid text

theorem readsWithin_of_lt {n : Nat}
    (h : (Progress.after (Text.bytes text) n).position < (Text.bytes text).size) :
    ReadsWithin text (Progress.after (Text.bytes text) n).position where
  run start hstart := by
    have hle := le_of_mem_runStarts (Nat.le_of_lt h) hstart
    exact ⟨hle, le_runEnd _ start, runEnd_le hle⟩
  token token htoken := by
    obtain ⟨hstart, hstop, hlt⟩ := eq_runEnd_of_token?_step htoken
    have hmem : token ∈ tokens text := Progress.mem_tokensFrom_of_token?_step h htoken
    obtain ⟨-, hvalid⟩ := Text.isSome_slice?_iff.mp (isSome_slice?_of_mem_tokens hmem)
    exact ⟨hstart, hstop, hlt, hvalid⟩

end Pattern

/-! ## Parts of a placeholder -/

namespace Placeholder

/-- The byte of the written form of a placeholder at which its name ends. -/
def nameEnd (spec : String) : Nat :=
  Text.byteSize (spec.toList.takeWhile (· ≠ ':'))

/-- The written form of a placeholder is cut in front of its first colon and behind it. -/
theorem ofSpec_eq {spec : String} (h : ':' ∈ spec.toList) :
    ∃ name type, Text.slice? spec 0 (nameEnd spec) = some name ∧
      Text.slice? spec (nameEnd spec + 1) spec.utf8ByteSize = some type ∧
      ofSpec spec = ⟨String.ofList (splitMark name.toList).1,
        .ofName (String.ofList (splitMark type.toList).1),
        (splitMark name.toList).2 || (splitMark type.toList).2⟩ := by
  obtain ⟨name, type, hspec, hname⟩ := List.eq_append_cons_of_mem h
  have hcolon : ∀ c ∈ name, decide (c ≠ ':') = true := fun c hc =>
    decide_eq_true fun heq => hname (heq ▸ hc)
  have htake : spec.toList.takeWhile (· ≠ ':') = name := by
    rw [hspec, List.takeWhile_append_of_pos hcolon]
    simp
  have hdrop : (spec.toList.dropWhile (· ≠ ':')).tail = type := by
    rw [hspec, List.dropWhile_append_of_pos hcolon]
    simp
  have hend : nameEnd spec = Text.byteSize name := congrArg Text.byteSize htake
  refine ⟨String.ofList name, String.ofList type, ?_, ?_, ?_⟩
  · rw [Text.slice?_eq_some_iff, String.toList_ofList, hend]
    exact ⟨[], ':' :: type, hspec, rfl, Nat.zero_add _⟩
  · rw [Text.slice?_eq_some_iff, String.toList_ofList, hend, ← Text.byteSize_toList, hspec]
    refine ⟨name ++ [':'], [], by simp, Pattern.byteSize_concat (by decide) name, ?_⟩
    rw [Text.byteSize_append, Nat.add_assoc]
    rfl
  · rw [ofSpec, htake, hdrop, String.toList_ofList, String.toList_ofList]

end Placeholder

namespace Pattern

/-- **Reading a text comes to its end and stays within it.** As long as there is something to read,
a step leads further along, but not beyond the end, and it asks for nothing that is not within the
text. At most one step for each byte leads to the end, with all tokens found. Each token becomes a
segment, and the two parts of a placeholder with a colon are slices of its written form. -/
theorem reading_stays_within (text : String) :
    let bytes := Text.bytes text
    bytes.size = text.utf8ByteSize ∧
    (∀ n, (Progress.after bytes n).position ≤ bytes.size) ∧
    (∀ n, (Progress.after bytes n).position < bytes.size →
      (Progress.after bytes n).position < (Progress.after bytes (n + 1)).position ∧
      ReadsWithin text (Progress.after bytes n).position) ∧
    (∃ n ≤ bytes.size, (∀ m < n, (Progress.after bytes m).position < bytes.size) ∧
      Progress.after bytes n = ⟨bytes.size, tokens text⟩) ∧
    (tokens text).map (Segment.ofToken? text) = (Segment.compile text).map some ∧
    ∀ spec : String, ':' ∈ spec.toList →
      ∃ name type, Text.slice? spec 0 (Placeholder.nameEnd spec) = some name ∧
        Text.slice? spec (Placeholder.nameEnd spec + 1) spec.utf8ByteSize = some type ∧
        Placeholder.ofSpec spec = ⟨String.ofList (Placeholder.splitMark name.toList).1,
          .ofName (String.ofList (Placeholder.splitMark type.toList).1),
          (Placeholder.splitMark name.toList).2 || (Placeholder.splitMark type.toList).2⟩ := by
  intro bytes
  refine ⟨Text.size_bytes_eq_utf8ByteSize text, Progress.position_after_le bytes, fun n hlt => ?_,
    Progress.exists_after_eq bytes, map_ofToken?_tokens text,
    fun spec hcolon => Placeholder.ofSpec_eq hcolon⟩
  refine ⟨?_, readsWithin_of_lt hlt⟩
  rw [Progress.after_succ_of_lt hlt]
  exact lt_step_next bytes _

/-- A letter of two bytes is read in two steps, and a brace at the end opens nothing. -/
example : (List.range 6).map (fun n => (Progress.after (Text.bytes r"é/{") n).position) =
    [0, 1, 2, 3, 4, 4] := by
  decide +kernel

end Pattern

end PathRouting
