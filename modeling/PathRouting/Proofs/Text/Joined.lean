/-!
# Words joined by a separator

What holds of words with a separator between them, wherever they come from: joined words are the
first one and then each other behind a separator (`intercalate_cons`), and words without separators
that are not empty leave none at the ends of the text.
-/

namespace PathRouting.Text

variable {sep c : Char} {words : List (List Char)}

theorem intercalate_cons (word : List Char) (words : List (List Char)) :
    [sep].intercalate (word :: words) = word ++ words.flatMap (sep :: ·) := by
  induction words generalizing word with
  | nil => simp
  | cons next words ih => rw [List.intercalate_cons_cons, ih]; simp

theorem flatMap_cons_eq (hne : words ≠ []) :
    words.flatMap (sep :: ·) = sep :: [sep].intercalate words := by
  obtain ⟨word, words, rfl⟩ := List.exists_cons_of_ne_nil hne
  rw [intercalate_cons, List.flatMap_cons, List.cons_append]

theorem mem_intercalate_iff (hc : c ≠ sep) :
    c ∈ [sep].intercalate words ↔ ∃ word ∈ words, c ∈ word := by
  cases words with
  | nil => simp
  | cons word words => simp [intercalate_cons, hc]

theorem intercalate_ne_nil (hne : words ≠ []) (hw : ∀ word ∈ words, word ≠ []) :
    [sep].intercalate words ≠ [] := by
  obtain ⟨word, words, rfl⟩ := List.exists_cons_of_ne_nil hne
  rw [intercalate_cons]
  exact List.append_ne_nil_of_left_ne_nil (hw word (by simp)) _

/-- Joined words that are not empty start with a character of the first word. -/
theorem head?_intercalate_ne (hs : ∀ word ∈ words, sep ∉ word) (hw : ∀ word ∈ words, word ≠ []) :
    ([sep].intercalate words).head? ≠ some sep := by
  cases words with
  | nil => simp
  | cons word words =>
    obtain ⟨c, cs, rfl⟩ := List.exists_cons_of_ne_nil (hw word (by simp))
    rw [intercalate_cons, List.cons_append, List.head?_cons]
    exact fun h => hs (c :: cs) (by simp) (by simp [Option.some.inj h])

/-- Joined words that are not empty end with a character of the last word. -/
theorem getLast?_intercalate_ne (hs : ∀ word ∈ words, sep ∉ word)
    (hw : ∀ word ∈ words, word ≠ []) : ([sep].intercalate words).getLast? ≠ some sep := by
  induction words with
  | nil => simp
  | cons word words ih =>
    cases words with
    | nil =>
      rw [List.intercalate_singleton]
      exact fun h => hs word (by simp) (List.mem_of_getLast? h)
    | cons next words =>
      have hrest := ih (fun w h => hs w (by simp [h])) (fun w h => hw w (by simp [h]))
      have hnext : [sep].intercalate (next :: words) ≠ [] :=
        intercalate_ne_nil (by simp) fun w h => hw w (by simp [h])
      rw [List.intercalate_cons_cons, List.getLast?_append]
      intro h
      rcases Option.or_eq_some_iff.mp h with h | ⟨h, -⟩
      · exact hrest h
      · exact hnext (List.getLast?_eq_none_iff.mp h)

end PathRouting.Text
