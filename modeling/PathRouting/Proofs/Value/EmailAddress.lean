import PathRouting.Proofs.Text.Repetition
import PathRouting.Value.ValueType

/-!
# The parts of an e-mail address

A text is an e-mail address exactly if it has one `@`, with a local part before it and a domain
behind it (`accepts_email_iff`). A local part is bounded in bytes, a domain has at least two labels,
and a label is bounded in characters.

The expression `address` describes these parts without the bound on the local part
(`matches_address_iff`), and the bound is checked on what stands before the last `@`. None of the
characters of a part is an `@`, so the last one is the only one.
-/

namespace PathRouting

namespace Email

open Text

variable {cs front domain : List Char}

/-- A local part has 1 to 64 bytes, all of them of letters, digits and the marks allowed there. -/
structure IsLocalPart (cs : List Char) : Prop where
  byteSize_pos : 1 ≤ byteSize cs
  byteSize_le : byteSize cs ≤ 64
  isLocalChar_of_mem : ∀ c ∈ cs, isLocalChar c = true

/-- A label has 1 to 63 letters, digits and hyphens, and no hyphen at its ends. -/
structure IsLabel (cs : List Char) : Prop where
  length_pos : 1 ≤ cs.length
  length_le : cs.length ≤ 63
  isLabelChar_of_mem : ∀ c ∈ cs, isLabelChar c = true
  head?_ne : cs.head? ≠ some '-'
  getLast?_ne : cs.getLast? ≠ some '-'

/-- A domain has at least two labels, with dots between them. -/
structure IsDomain (cs : List Char) : Prop where
  two_le_length : 2 ≤ (cs.splitOn '.').length
  isLabel_of_mem : ∀ label ∈ cs.splitOn '.', IsLabel label

/-! ## What the expression describes -/

theorem isAlphanum_iff {c : Char} : c.isAlphanum = true ↔ isLabelChar c = true ∧ c ≠ '-' := by
  rw [isLabelChar, Bool.or_eq_true, beq_iff_eq]
  constructor
  · exact fun h => ⟨.inl h, fun e => absurd (e ▸ h) (by decide)⟩
  · rintro ⟨h | h, hne⟩
    · exact h
    · exact absurd h hne

/-- A label is one letter or digit, or two with further characters between them. -/
theorem matches_label_iff : label.Matches cs ↔ IsLabel cs := by
  rw [label, Regex.matches_seq]
  constructor
  · rintro ⟨_, rest, rfl, hone, hrest⟩
    obtain ⟨c, hc, rfl⟩ := Regex.matches_one.mp hone
    obtain ⟨hc, hhead⟩ := isAlphanum_iff.mp hc
    rcases Regex.matches_optional.mp hrest with rfl | hrest
    · exact ⟨by simp, by simp, by simpa using hc, by simpa using hhead, by simpa using hhead⟩
    · obtain ⟨middle, _, rfl, hmiddle, hlast⟩ := Regex.matches_seq.mp hrest
      obtain ⟨d, hd, rfl⟩ := Regex.matches_one.mp hlast
      obtain ⟨hd, hlast⟩ := isAlphanum_iff.mp hd
      obtain ⟨hlen, hmiddle⟩ := Regex.matches_upTo_one.mp hmiddle
      rw [List.singleton_append, ← List.cons_append]
      have hcount : (c :: middle ++ [d]).length = middle.length + 2 := by simp
      refine ⟨by omega, by omega, ?_, by simpa using hhead, ?_⟩
      · have hfront : ∀ e ∈ c :: middle, isLabelChar e = true :=
          List.forall_mem_cons.mpr ⟨hc, hmiddle⟩
        intro e he
        rcases List.mem_append.mp he with he | he
        · exact hfront e he
        · rwa [List.mem_singleton.mp he]
      · rw [List.getLast?_concat]
        exact fun e => hlast (Option.some.inj e)
  · intro h
    obtain ⟨c, rest, rfl⟩ := List.exists_cons_of_length_pos h.length_pos
    have hc : c.isAlphanum = true := isAlphanum_iff.mpr
      ⟨h.isLabelChar_of_mem c (by simp), fun e => h.head?_ne (by rw [e, List.head?_cons])⟩
    refine ⟨[c], rest, rfl, .one hc, Regex.matches_optional.mpr ?_⟩
    rcases List.eq_nil_or_concat rest with rfl | ⟨middle, d, hrest⟩
    · exact .inl rfl
    · rw [List.concat_eq_append] at hrest
      subst hrest
      have hlast : (c :: (middle ++ [d])).getLast? = some d := by
        rw [← List.cons_append, List.getLast?_concat]
      have hd : d.isAlphanum = true := isAlphanum_iff.mpr
        ⟨h.isLabelChar_of_mem d (by simp), fun e => h.getLast?_ne (by rw [hlast, e])⟩
      have hcount : (c :: (middle ++ [d])).length = middle.length + 2 := by simp
      have hlen : middle.length ≤ 61 := by
        have hle := h.length_le
        omega
      have hmiddle : ∀ e ∈ middle, isLabelChar e = true := fun e he =>
        h.isLabelChar_of_mem e (by simp [he])
      exact .inr (.seq (Regex.matches_upTo_one.mpr ⟨hlen, hmiddle⟩) (.one hd))

theorem IsLabel.dot_notMem (h : IsLabel cs) : '.' ∉ cs :=
  fun hdot => absurd (h.isLabelChar_of_mem _ hdot) (by decide)

theorem matches_domain_iff :
    (Regex.seq label (.plus (.seq (.one (· == '.')) label))).Matches cs ↔ IsDomain cs := by
  rw [Regex.matches_separated]
  constructor
  · rintro ⟨labels, hlen, hlabels, rfl⟩
    have hlabels : ∀ word ∈ labels, IsLabel word := fun word hword =>
      matches_label_iff.mp (hlabels word hword)
    have hsplit : (['.'].intercalate labels).splitOn '.' = labels :=
      List.splitOn_intercalate '.' (fun word hword => (hlabels word hword).dot_notMem)
        (List.ne_nil_of_length_pos (by omega))
    exact ⟨by rwa [hsplit], by rwa [hsplit]⟩
  · rintro ⟨hlen, hlabels⟩
    refine ⟨cs.splitOn '.', hlen, fun word hword => ?_, (List.intercalate_splitOn '.').symm⟩
    exact matches_label_iff.mpr (hlabels word hword)

theorem IsDomain.at_notMem (h : IsDomain cs) : '@' ∉ cs := by
  have hjoined : ['.'].intercalate (cs.splitOn '.') = cs := List.intercalate_splitOn '.'
  rw [← hjoined, mem_intercalate_iff (by decide)]
  rintro ⟨word, hword, hat⟩
  exact absurd ((h.isLabel_of_mem word hword).isLabelChar_of_mem _ hat) (by decide)

theorem matches_address_iff :
    address.Matches cs ↔ ∃ front domain, cs = front ++ '@' :: domain ∧ front ≠ [] ∧
      (∀ c ∈ front, isLocalChar c = true) ∧ IsDomain domain := by
  rw [address, Regex.matches_seq]
  constructor
  · rintro ⟨front, rest, rfl, hfront, hrest⟩
    obtain ⟨domain, hdomain, rfl⟩ := Regex.matches_behind.mp hrest
    obtain ⟨hne, hfront⟩ := Regex.matches_plus_one.mp hfront
    exact ⟨front, domain, rfl, hne, hfront, matches_domain_iff.mp hdomain⟩
  · rintro ⟨front, domain, rfl, hne, hfront, hdomain⟩
    refine ⟨front, '@' :: domain, rfl, Regex.matches_plus_one.mpr ⟨hne, hfront⟩, ?_⟩
    exact Regex.matches_behind.mpr ⟨domain, matches_domain_iff.mpr hdomain, rfl⟩

/-! ## The bound on the local part -/

/-- If there is no `@` behind it, an `@` is the last one. -/
theorem localPart?_append (h : '@' ∉ domain) :
    localPart? (front ++ '@' :: domain) = some front := by
  have hdrop : (domain.reverse ++ '@' :: front.reverse).dropWhile (· ≠ '@') =
      '@' :: front.reverse := by
    rw [List.dropWhile_append_of_pos fun c hc => by
      simpa using fun e : c = '@' => h (e ▸ List.mem_reverse.mp hc)]
    rfl
  rw [localPart?, List.reverse_append, List.reverse_cons, List.append_assoc,
    List.singleton_append, hdrop]
  simp

theorem isAddress_iff {value : String} :
    isAddress value = true ↔ ∃ front domain, value.toList = front ++ '@' :: domain ∧
      IsLocalPart front ∧ IsDomain domain := by
  constructor
  · intro h
    rw [isAddress] at h
    split at h
    case h_1 before hbefore =>
      rw [Bool.and_eq_true, decide_eq_true_eq, Regex.accepts_iff_matches] at h
      obtain ⟨front, domain, heq, hne, hfront, hdomain⟩ := matches_address_iff.mp h.2
      rw [heq, localPart?_append hdomain.at_notMem, Option.some.injEq] at hbefore
      rw [← hbefore] at h
      exact ⟨front, domain, heq, ⟨byteSize_pos hne, h.1, hfront⟩, hdomain⟩
    case h_2 => cases h
  · rintro ⟨front, domain, heq, hfront, hdomain⟩
    have hne : front ≠ [] := fun e => absurd hfront.byteSize_pos (by simp [e, byteSize])
    have haccepts : address.accepts value.toList = true := by
      rw [Regex.accepts_iff_matches, matches_address_iff]
      exact ⟨front, domain, heq, hne, hfront.isLocalChar_of_mem, hdomain⟩
    rw [isAddress, haccepts, heq, localPart?_append hdomain.at_notMem]
    simp [localLimit, hfront.byteSize_le]

theorem IsLocalPart.at_notMem (h : IsLocalPart cs) : '@' ∉ cs :=
  fun hat => absurd (h.isLocalChar_of_mem _ hat) (by decide)

end Email

/-- **An e-mail address has one `@`**, a local part of at most 64 bytes before it and a domain of
two labels or more behind it. -/
theorem ValueType.accepts_email_iff (value : String) :
    ValueType.email.accepts value = true ↔
      ∃ front domain, value.toList.splitOn '@' = [front, domain] ∧
        Email.IsLocalPart front ∧ Email.IsDomain domain := by
  have hjoined : ∀ front domain : List Char,
      ['@'].intercalate [front, domain] = front ++ '@' :: domain := by
    simp
  rw [ValueType.accepts, Email.isAddress_iff]
  constructor
  · rintro ⟨front, domain, heq, hfront, hdomain⟩
    refine ⟨front, domain, ?_, hfront, hdomain⟩
    rw [heq, ← hjoined, List.splitOn_intercalate '@' _ (by simp)]
    simpa using ⟨hfront.at_notMem, hdomain.at_notMem⟩
  · rintro ⟨front, domain, hsplit, hfront, hdomain⟩
    refine ⟨front, domain, ?_, hfront, hdomain⟩
    rw [← hjoined, ← hsplit, List.intercalate_splitOn]

/-- One label is not a domain, and a second `@` does not make a longer local part. -/
example :
    ValueType.email.accepts "a@b.c" = true ∧ ValueType.email.accepts "a@b" = false ∧
      ValueType.email.accepts "a@b@c.d" = false := by
  decide +kernel

end PathRouting
