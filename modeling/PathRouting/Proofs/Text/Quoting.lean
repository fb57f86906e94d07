import Mathlib.Data.List.Basic
import PathRouting.Text.Quoted

/-!
# Reading quoted texts

A quoted text says by itself where it ends. The written form of a character never starts that of
another (`escape_append_inj`) nor with the closing quote, so that a quoted text can be told from
what follows it, whatever characters either of them holds (`quote_append_inj`).
-/

namespace PathRouting.Text

/-! ## Hexadecimal digits -/

theorem digitChar_inj {m n : Nat} (hm : m < 16) (hn : n < 16) (h : m.digitChar = n.digitChar) :
    m = n := by
  have hall : ∀ m < 16, ∀ n < 16, Nat.digitChar m = Nat.digitChar n → m = n := by decide
  exact hall m hm n hn h

theorem brace_notMem_toDigits (n : Nat) : '}' ∉ Nat.toDigits 16 n := by
  induction n using Nat.strongRecOn with
  | ind n ih =>
    have hdigit (d : Nat) : '}' ∉ [d.digitChar] := fun hmem =>
      Nat.digitChar_ne '}' (by decide) (List.mem_singleton.mp hmem).symm
    rw [Nat.toDigits_eq_if (by decide)]
    split
    case isTrue => exact hdigit n
    case isFalse hn =>
      rw [List.mem_append, not_or]
      exact ⟨ih (n / 16) (by omega), hdigit (n % 16)⟩

/-- A number with one digit has no digits in common with a longer one. -/
theorem singleton_ne_toDigits_append (b n : Nat) (c d : Char) :
    [c] ≠ Nat.toDigits b n ++ [d] := by
  intro h
  have hlen := congrArg List.length h
  have hpos : 0 < (Nat.toDigits b n).length := Nat.length_toDigits_pos
  rw [List.length_append, List.length_singleton, List.length_singleton] at hlen
  omega

/-- Numbers with the same digits are the same. -/
theorem toDigits_inj {m n : Nat} (h : Nat.toDigits 16 m = Nat.toDigits 16 n) : m = n := by
  induction m using Nat.strongRecOn generalizing n with
  | ind m ih =>
    rw [Nat.toDigits_eq_if (by decide), Nat.toDigits_eq_if (n := n) (by decide)] at h
    by_cases hm : m < 16 <;> by_cases hn : n < 16
    · rw [if_pos hm, if_pos hn, List.singleton_inj] at h
      exact digitChar_inj hm hn h
    · rw [if_pos hm, if_neg hn] at h
      exact absurd h (singleton_ne_toDigits_append 16 _ _ _)
    · rw [if_neg hm, if_pos hn] at h
      exact absurd h.symm (singleton_ne_toDigits_append 16 _ _ _)
    · rw [if_neg hm, if_neg hn] at h
      obtain ⟨hfront, hlast⟩ := List.append_inj' h rfl
      have hdiv : m / 16 = n / 16 := ih (m / 16) (by omega) hfront
      have hmod : m % 16 = n % 16 :=
        digitChar_inj (Nat.mod_lt m (by decide)) (Nat.mod_lt n (by decide))
          (List.singleton_inj.mp hlast)
      omega

/-! ## One character -/

/-- The character that a letter or sign stands for behind a backslash, if it stands for one by
itself. -/
def marked? : Char → Option Char
  | '0' => some '\x00'
  | 't' => some '\t'
  | 'r' => some '\r'
  | 'n' => some '\n'
  | '"' => some '"'
  | '\\' => some '\\'
  | _ => none

/-- A character is written as it is, by a mark or by its code point. -/
theorem escape_cases (c : Char) :
    (c ≠ '"' ∧ c ≠ '\\' ∧ escape c = [c]) ∨
      (∃ mark, marked? mark = some c ∧ escape c = ['\\', mark]) ∨ escape c = escapeCode c := by
  unfold escape
  split
  case h_1 => exact .inr (.inl ⟨'0', rfl, rfl⟩)
  case h_2 => exact .inr (.inl ⟨'t', rfl, rfl⟩)
  case h_3 => exact .inr (.inl ⟨'r', rfl, rfl⟩)
  case h_4 => exact .inr (.inl ⟨'n', rfl, rfl⟩)
  case h_5 => exact .inr (.inl ⟨'"', rfl, rfl⟩)
  case h_6 => exact .inr (.inl ⟨'\\', rfl, rfl⟩)
  case h_7 hquote hbackslash =>
    split
    case isTrue => exact .inr (.inr rfl)
    case isFalse => exact .inl ⟨hquote, hbackslash, rfl⟩

/-- No written form starts with the closing quote. -/
theorem escape_ne_quote_cons (c : Char) (cs ds : List Char) : escape c ++ cs ≠ '"' :: ds := by
  intro h
  rcases escape_cases c with ⟨hquote, -, hc⟩ | ⟨mark, -, hc⟩ | hc
  · rw [hc] at h
    exact hquote (List.cons.inj h).1
  · rw [hc] at h
    exact absurd (List.cons.inj h).1 (by decide)
  · rw [hc] at h
    exact absurd (List.cons.inj h).1 (by decide)

/-- What stands before the first `c` of a list and what stands behind it are known from the list. -/
theorem append_cons_inj {c : Char} {as bs cs ds : List Char} (ha : c ∉ as) (hb : c ∉ bs)
    (h : as ++ c :: cs = bs ++ c :: ds) : as = bs ∧ cs = ds := by
  induction as generalizing bs with
  | nil =>
    cases bs with
    | nil => exact ⟨rfl, (List.cons.inj h).2⟩
    | cons b bs => exact absurd (List.cons.inj h).1 (List.ne_of_not_mem_cons hb)
  | cons a as ih =>
    cases bs with
    | nil => exact absurd (List.cons.inj h).1.symm (List.ne_of_not_mem_cons ha)
    | cons b bs =>
      obtain ⟨rfl, htail⟩ := List.cons.inj h
      obtain ⟨rfl, hrest⟩ :=
        ih (List.not_mem_of_not_mem_cons ha) (List.not_mem_of_not_mem_cons hb) htail
      exact ⟨rfl, hrest⟩

theorem escapeCode_append_inj {c d : Char} {cs ds : List Char}
    (h : escapeCode c ++ cs = escapeCode d ++ ds) : c = d ∧ cs = ds := by
  simp only [escapeCode, List.cons_append, List.append_assoc, List.nil_append, List.cons.injEq,
    true_and] at h
  obtain ⟨hdigits, hrest⟩ :=
    append_cons_inj (brace_notMem_toDigits _) (brace_notMem_toDigits _) h
  exact ⟨Char.toNat_inj.mp (toDigits_inj hdigits), hrest⟩

/-- **A character is known from its written form**, whatever follows it. -/
theorem escape_append_inj {c d : Char} {cs ds : List Char} (h : escape c ++ cs = escape d ++ ds) :
    c = d ∧ cs = ds := by
  -- the first character tells a plain form from the others, the second a mark from a code point
  rcases escape_cases c with ⟨-, hc', hc⟩ | ⟨mark, hmark, hc⟩ | hc <;>
    rcases escape_cases d with ⟨-, hd', hd⟩ | ⟨mark', hmark', hd⟩ | hd <;> rw [hc, hd] at h
  · exact List.cons.inj h
  · exact absurd (List.cons.inj h).1 hc'
  · exact absurd (List.cons.inj h).1 hc'
  · exact absurd (List.cons.inj h).1.symm hd'
  · simp only [List.cons_append, List.nil_append, List.cons.injEq, true_and] at h
    obtain ⟨rfl, hrest⟩ := h
    exact ⟨Option.some.inj (hmark.symm.trans hmark'), hrest⟩
  · obtain ⟨rfl, -⟩ := List.cons.inj (List.cons.inj h).2
    cases hmark
  · exact absurd (List.cons.inj h).1.symm hd'
  · obtain ⟨rfl, -⟩ := List.cons.inj (List.cons.inj h).2
    cases hmark'
  · exact escapeCode_append_inj h

/-! ## Texts -/

theorem flatMap_escape_append_inj {cs ds rest rest' : List Char}
    (h : cs.flatMap escape ++ '"' :: rest = ds.flatMap escape ++ '"' :: rest') :
    cs = ds ∧ rest = rest' := by
  induction cs generalizing ds with
  | nil =>
    cases ds with
    | nil => exact ⟨rfl, (List.cons.inj h).2⟩
    | cons d ds =>
      rw [List.flatMap_cons, List.append_assoc] at h
      exact absurd h.symm (escape_ne_quote_cons d _ _)
  | cons c cs ih =>
    rw [List.flatMap_cons, List.append_assoc] at h
    cases ds with
    | nil => exact absurd h (escape_ne_quote_cons c _ _)
    | cons d ds =>
      rw [List.flatMap_cons, List.append_assoc] at h
      obtain ⟨rfl, htail⟩ := escape_append_inj h
      obtain ⟨rfl, hrest⟩ := ih htail
      exact ⟨rfl, hrest⟩

/-- **A text is known from its quoted form**, whatever follows it. -/
theorem quote_append_inj {text text' rest rest' : String}
    (h : quote text ++ rest = quote text' ++ rest') : text = text' ∧ rest = rest' := by
  have hlist := congrArg String.toList h
  simp only [quote, String.toList_append, String.toList_ofList, List.cons_append, List.append_assoc,
    List.nil_append, List.cons.injEq, true_and] at hlist
  obtain ⟨htext, hrest⟩ := flatMap_escape_append_inj hlist
  exact ⟨String.toList_inj.mp htext, String.toList_inj.mp hrest⟩

theorem quote_inj {text text' : String} (h : quote text = quote text') : text = text' :=
  (quote_append_inj (congrArg (· ++ "") h)).1

end PathRouting.Text
