/-!
# Regular expressions

Expressions over single characters, recognised by derivatives: after reading `c`, what an
expression still has to match is its derivative by `c`, and a text is accepted when the
derivative by all its characters accepts the empty text.

`Matches` says without derivatives which texts an expression describes, and
`accepts_iff_matches` that these are the accepted ones.
-/

namespace PathRouting.Text

/-- A regular expression. -/
inductive Regex where
  /-- Describes no text. -/
  | nothing
  /-- Describes the empty text only. -/
  | empty
  /-- Describes the texts of one character of the class `p`. -/
  | one (p : Char → Bool)
  /-- Describes what `a` or `b` describes. -/
  | either (a b : Regex)
  /-- Describes a text of `a` followed by a text of `b`. -/
  | seq (a b : Regex)
  /-- Describes any number of texts of `a` in a row. -/
  | star (a : Regex)

namespace Regex

/-- At most one text of `a`. -/
def optional (a : Regex) : Regex := .either .empty a

/-- One or more texts of `a`. -/
def plus (a : Regex) : Regex := .seq a (.star a)

/-- At most `n` texts of `a`. -/
def upTo (a : Regex) : Nat → Regex
  | 0 => .empty
  | n + 1 => .optional (.seq a (a.upTo n))

/-! ## Recognition -/

/-- Whether the empty text is described. -/
def nullable : Regex → Bool
  | .nothing => false
  | .empty => true
  | .one _ => false
  | .either a b => a.nullable || b.nullable
  | .seq a b => a.nullable && b.nullable
  | .star _ => true

/-- The choice between two expressions, without a branch that describes nothing. -/
def choice : Regex → Regex → Regex
  | .nothing, b => b
  | a, .nothing => a
  | a, b => .either a b

/-- One expression after another, without a part that describes only the empty text. -/
def chain : Regex → Regex → Regex
  | .nothing, _ => .nothing
  | .empty, b => b
  | a, b => .seq a b

/-- What is left to match after `c` is read. -/
def derivative (c : Char) : Regex → Regex
  | .nothing => .nothing
  | .empty => .nothing
  | .one p => if p c then .empty else .nothing
  | .either a b => choice (a.derivative c) (b.derivative c)
  | .seq a b =>
    if a.nullable then choice (chain (a.derivative c) b) (b.derivative c)
    else chain (a.derivative c) b
  | .star a => chain (a.derivative c) (.star a)

/-- Whether the expression describes the whole of a text. -/
def accepts (r : Regex) : List Char → Bool
  | [] => r.nullable
  | c :: cs => (r.derivative c).accepts cs

/-! ## The texts that an expression describes -/

/-- `r.Matches cs`: the expression `r` describes the text `cs`. -/
inductive Matches : Regex → List Char → Prop
  | empty : Matches .empty []
  | one {p : Char → Bool} {c : Char} (h : p c = true) : Matches (.one p) [c]
  | left {a b : Regex} {cs : List Char} (h : Matches a cs) : Matches (.either a b) cs
  | right {a b : Regex} {cs : List Char} (h : Matches b cs) : Matches (.either a b) cs
  | seq {a b : Regex} {cs ds : List Char} (ha : Matches a cs) (hb : Matches b ds) :
      Matches (.seq a b) (cs ++ ds)
  | starNil {a : Regex} : Matches (.star a) []
  | starMore {a : Regex} {cs ds : List Char} (ha : Matches a cs) (hs : Matches (.star a) ds) :
      Matches (.star a) (cs ++ ds)

theorem matches_nothing (cs : List Char) : ¬ Matches .nothing cs := nofun

theorem matches_empty {cs : List Char} : Matches .empty cs ↔ cs = [] := by
  constructor
  · rintro ⟨⟩
    rfl
  · rintro rfl
    exact .empty

theorem matches_one {p : Char → Bool} {cs : List Char} :
    Matches (.one p) cs ↔ ∃ c, p c = true ∧ cs = [c] := by
  constructor
  · rintro ⟨⟩
    exact ⟨_, ‹_›, rfl⟩
  · rintro ⟨c, h, rfl⟩
    exact .one h

theorem matches_either {a b : Regex} {cs : List Char} :
    Matches (.either a b) cs ↔ Matches a cs ∨ Matches b cs := by
  constructor
  · intro h
    cases h with
    | left h => exact .inl h
    | right h => exact .inr h
  · rintro (h | h)
    · exact .left h
    · exact .right h

theorem matches_seq {a b : Regex} {cs : List Char} :
    Matches (.seq a b) cs ↔ ∃ ds es, cs = ds ++ es ∧ Matches a ds ∧ Matches b es := by
  constructor
  · intro h
    cases h with
    | seq ha hb => exact ⟨_, _, rfl, ha, hb⟩
  · rintro ⟨ds, es, rfl, ha, hb⟩
    exact .seq ha hb

/-- A non-empty text of a repetition starts with a non-empty text of what is repeated. -/
theorem matches_star_cons {a : Regex} {c : Char} {cs : List Char} :
    Matches (.star a) (c :: cs) ↔
      ∃ ds es, cs = ds ++ es ∧ Matches a (c :: ds) ∧ Matches (.star a) es := by
  constructor
  · intro h
    generalize hr : Regex.star a = r at h
    generalize ht : c :: cs = t at h
    induction h with
    | starNil => simp at ht
    | @starMore b ds es ha hs _ ih =>
      cases hr
      cases ds with
      | nil => exact ih rfl ht
      | cons d ds =>
        obtain ⟨rfl, rfl⟩ := List.cons.inj ht
        exact ⟨ds, es, rfl, ha, hs⟩
    | _ => simp at hr
  · rintro ⟨ds, es, rfl, ha, hs⟩
    exact .starMore ha hs

theorem nullable_iff_matches (r : Regex) : r.nullable = true ↔ r.Matches [] := by
  induction r with
  | nothing => simp [nullable, matches_nothing]
  | empty => simp [nullable, matches_empty]
  | one p => simp [nullable, matches_one]
  | either a b iha ihb => simp [nullable, matches_either, iha, ihb]
  | seq a b iha ihb => simp [nullable, matches_seq, iha, ihb, and_assoc]
  | star a _ => simp [nullable, Matches.starNil]

theorem matches_choice (a b : Regex) (cs : List Char) :
    (choice a b).Matches cs ↔ a.Matches cs ∨ b.Matches cs := by
  fun_cases choice a b <;> simp [matches_nothing, matches_either]

theorem matches_chain (a b : Regex) (cs : List Char) :
    (chain a b).Matches cs ↔ (Regex.seq a b).Matches cs := by
  fun_cases chain a b with
  | case1 => simp [matches_nothing, matches_seq]
  | case2 =>
    rw [matches_seq]
    constructor
    · exact fun h => ⟨[], cs, rfl, .empty, h⟩
    · rintro ⟨ds, es, rfl, hd, he⟩
      rwa [matches_empty.mp hd]
  | case3 => rfl

theorem matches_derivative (c : Char) (r : Regex) (cs : List Char) :
    (r.derivative c).Matches cs ↔ r.Matches (c :: cs) := by
  induction r generalizing cs with
  | nothing => simp [derivative, matches_nothing]
  | empty => simp [derivative, matches_nothing, matches_empty]
  | one p =>
    by_cases h : p c = true
    · simp only [derivative, h, if_true, matches_empty, matches_one, List.cons.injEq]
      exact ⟨fun e => ⟨c, h, rfl, e⟩, fun ⟨_, _, _, e⟩ => e⟩
    · simp only [derivative, h, matches_one, List.cons.injEq]
      exact ⟨nofun, fun ⟨_, hp, e, _⟩ => absurd (e ▸ hp) h⟩
  | either a b iha ihb => simp [derivative, matches_choice, matches_either, iha, ihb]
  | seq a b iha ihb =>
    have key : (Regex.seq (a.derivative c) b).Matches cs ∨
        a.Matches [] ∧ (b.derivative c).Matches cs ↔ (Regex.seq a b).Matches (c :: cs) := by
      simp only [matches_seq, iha, ihb, List.cons_eq_append_iff]
      grind
    rw [← key, derivative, ← nullable_iff_matches]
    cases a.nullable <;> simp [matches_choice, matches_chain]
  | star a ih => simp [derivative, matches_chain, matches_seq, matches_star_cons, ih]

/-- The accepted texts are those that the expression describes. -/
theorem accepts_iff_matches (r : Regex) (cs : List Char) :
    r.accepts cs = true ↔ r.Matches cs := by
  induction cs generalizing r with
  | nil => exact nullable_iff_matches r
  | cons c cs ih => rw [accepts, ih, matches_derivative]

end Regex

end PathRouting.Text
