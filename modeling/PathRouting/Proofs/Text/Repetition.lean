import PathRouting.Proofs.Text.Joined
import PathRouting.Text.Regex

/-!
# Repetitions in regular expressions

A repetition of single characters describes the texts of these characters: any number of them
(`matches_star_one`), at least one (`matches_plus_one`) or at most `n` (`matches_upTo_one`). An
expression that is repeated behind a separator describes the texts between the separators
(`matches_separated`).
-/

namespace PathRouting.Text.Regex

variable {a : Regex} {p : Char → Bool} {cs : List Char}

theorem matches_optional : Matches a.optional cs ↔ cs = [] ∨ Matches a cs := by
  rw [optional, matches_either, matches_empty]

/-! ## Repeated characters -/

theorem matches_star_one : Matches (.star (.one p)) cs ↔ ∀ c ∈ cs, p c = true := by
  induction cs with
  | nil => simp [Matches.starNil]
  | cons c cs ih =>
    rw [matches_star_cons, List.forall_mem_cons, ← ih]
    constructor
    · rintro ⟨ds, es, rfl, hone, hstar⟩
      obtain ⟨d, hd, heq⟩ := matches_one.mp hone
      obtain ⟨rfl, rfl⟩ := List.cons.inj heq
      exact ⟨hd, hstar⟩
    · rintro ⟨hc, hstar⟩
      exact ⟨[], cs, rfl, .one hc, hstar⟩

theorem matches_plus_one : Matches (plus (.one p)) cs ↔ cs ≠ [] ∧ ∀ c ∈ cs, p c = true := by
  rw [plus, matches_seq]
  constructor
  · rintro ⟨ds, es, rfl, hone, hstar⟩
    obtain ⟨c, hc, rfl⟩ := matches_one.mp hone
    refine ⟨by simp, ?_⟩
    rw [List.singleton_append, List.forall_mem_cons]
    exact ⟨hc, matches_star_one.mp hstar⟩
  · rintro ⟨hne, hall⟩
    obtain ⟨c, cs, rfl⟩ := List.exists_cons_of_ne_nil hne
    rw [List.forall_mem_cons] at hall
    exact ⟨[c], cs, rfl, .one hall.1, matches_star_one.mpr hall.2⟩

theorem matches_upTo_one {n : Nat} :
    Matches ((one p).upTo n) cs ↔ cs.length ≤ n ∧ ∀ c ∈ cs, p c = true := by
  induction n generalizing cs with
  | zero =>
    rw [upTo, matches_empty, Nat.le_zero, List.length_eq_zero_iff]
    exact ⟨by rintro rfl; simp, And.left⟩
  | succ n ih =>
    rw [upTo, matches_optional, matches_seq]
    constructor
    · rintro (rfl | ⟨ds, es, rfl, hone, hrest⟩)
      · simp
      · obtain ⟨c, hc, rfl⟩ := matches_one.mp hone
        obtain ⟨hlen, hall⟩ := ih.mp hrest
        rw [List.singleton_append, List.length_cons, List.forall_mem_cons]
        exact ⟨Nat.succ_le_succ hlen, hc, hall⟩
    · rintro ⟨hlen, hall⟩
      cases cs with
      | nil => exact .inl rfl
      | cons c cs =>
        rw [List.length_cons] at hlen
        rw [List.forall_mem_cons] at hall
        exact .inr ⟨[c], cs, rfl, .one hall.1, ih.mpr ⟨Nat.le_of_succ_le_succ hlen, hall.2⟩⟩

/-! ## Separated texts -/

theorem matches_behind {sep : Char} :
    Matches (.seq (.one (· == sep)) a) cs ↔ ∃ word, Matches a word ∧ cs = sep :: word := by
  rw [matches_seq]
  constructor
  · rintro ⟨ds, word, rfl, hone, hword⟩
    obtain ⟨c, hc, rfl⟩ := matches_one.mp hone
    exact ⟨word, hword, by rw [beq_iff_eq.mp hc, List.singleton_append]⟩
  · rintro ⟨word, hword, rfl⟩
    exact ⟨[sep], word, rfl, .one (beq_self_eq_true sep), hword⟩

theorem matches_star_behind {sep : Char} :
    Matches (.star (.seq (.one (· == sep)) a)) cs ↔
      ∃ words : List (List Char), (∀ word ∈ words, Matches a word) ∧
        cs = words.flatMap (sep :: ·) := by
  constructor
  · intro h
    generalize hr : Regex.star (.seq (.one (· == sep)) a) = r at h
    induction h with
    | starNil => exact ⟨[], by simp, rfl⟩
    | starMore ha _ _ ih =>
      cases hr
      obtain ⟨words, hwords, rfl⟩ := ih rfl
      obtain ⟨word, hword, rfl⟩ := matches_behind.mp ha
      exact ⟨word :: words, List.forall_mem_cons.mpr ⟨hword, hwords⟩, by rw [List.flatMap_cons]⟩
    | _ => cases hr
  · rintro ⟨words, hwords, rfl⟩
    induction words with
    | nil => exact .starNil
    | cons word words ih =>
      rw [List.forall_mem_cons] at hwords
      exact .starMore (matches_behind.mpr ⟨word, hwords.1, rfl⟩) (ih hwords.2)

/-- Texts of an expression with separators between them, at least two. -/
theorem matches_separated {sep : Char} :
    Matches (.seq a (.plus (.seq (.one (· == sep)) a))) cs ↔
      ∃ words, 2 ≤ words.length ∧ (∀ word ∈ words, Matches a word) ∧
        cs = [sep].intercalate words := by
  constructor
  · intro h
    obtain ⟨first, later, rfl, hfirst, hplus⟩ := matches_seq.mp h
    obtain ⟨_, _, rfl, hbehind, hstar⟩ := matches_seq.mp hplus
    obtain ⟨second, hsecond, rfl⟩ := matches_behind.mp hbehind
    obtain ⟨words, hwords, rfl⟩ := matches_star_behind.mp hstar
    refine ⟨first :: second :: words, by simp, ?_, ?_⟩
    · simpa using ⟨hfirst, hsecond, hwords⟩
    · rw [intercalate_cons, List.flatMap_cons]
  · rintro ⟨words, hlen, hwords, rfl⟩
    match words with
    | first :: second :: words =>
      rw [List.forall_mem_cons, List.forall_mem_cons] at hwords
      rw [intercalate_cons, List.flatMap_cons]
      exact .seq hwords.1 <| .seq (matches_behind.mpr ⟨second, hwords.2.1, rfl⟩) <|
        matches_star_behind.mpr ⟨words, hwords.2.2, rfl⟩

end PathRouting.Text.Regex
