import Calculator.Expression.Grammar
import Calculator.Proofs.Token.Lexing
import Mathlib.Data.List.Chain

/-!
# The spellings of tokens

A row of tokens can be written in many ways: a number has many spellings, and blanks may stand
between the lexemes and around them. Where no two numbers and no two names stand side by side the
lexemes need no blanks to be told apart.

* `Lexeme` are the spellings of one token, `Spells` those of a row;
* `Token.Merges` tells the neighbours that need a blank, `Grammar.Derives.isChain` says that an
  expression has none;
* `lex_of_spells` reads a spelling back.
-/

namespace Calculator

open Text (isBlank)

/-- The spellings of a token. A number is spelled by any literal that the nearest double is taken
from, unless the literal is too large. -/
inductive Lexeme : List Char → Token → Prop
  | number {run : List Char} {d : Decimal} : Literal run d →
      Double.isFinite (d.toFloat false) = true → Lexeme run (.number (d.toFloat false))
  | function (f : NamedFunction) : Lexeme f.name.toList (.function f)
  | operator (op : BinaryOperator) : Lexeme [op.symbol] (.operator op.symbol)
  | openParen : Lexeme ['('] .openParen
  | closeParen : Lexeme [')'] .closeParen

/-- The spellings of a row of tokens: their lexemes in order, with any blanks between and around. -/
inductive Spells : List Char → List Token → Prop
  | nil {gap : List Char} : (∀ c ∈ gap, isBlank c = true) → Spells gap []
  | cons {gap run rest : List Char} {t : Token} {ts : List Token} :
      (∀ c ∈ gap, isBlank c = true) → Lexeme run t → Spells rest ts →
      Spells (gap ++ run ++ rest) (t :: ts)

/-- Whether two lexemes side by side would be read as one. -/
def Token.Merges : Token → Token → Prop
  | number _, number _ | function _, function _ => True
  | _, _ => False

/-! ## What a spelling starts with -/

/-- The letters of a name. -/
theorem isAlpha_of_mem_name (f : NamedFunction) : ∀ c ∈ f.name.toList, c.isAlpha = true :=
  List.all_eq_true.mp (by cases f <;> decide)

theorem Lexeme.ne_nil {run : List Char} {t : Token} (h : Lexeme run t) : run ≠ [] := by
  cases h with
  | number h _ =>
    obtain ⟨c, cs, rfl, -⟩ := h.exists_cons
    exact List.cons_ne_nil c cs
  | function f => cases f <;> decide
  | operator op => exact List.cons_ne_nil _ _
  | openParen | closeParen => exact List.cons_ne_nil _ _

/-- What a lexeme starts with tells what it is: a digit or a point starts a number, a letter starts a
name, and any other character is a lexeme of its own. -/
theorem Lexeme.head {run : List Char} {t : Token} (h : Lexeme run t) {c : Char}
    (hc : c ∈ run.head?) :
    (isNumeral c = true ∧ ∃ v, t = .number v) ∨ (c.isAlpha = true ∧ ∃ f, t = .function f)
      ∨ standsAlone c = true := by
  cases h with
  | number hrun _ => exact .inl ⟨hrun.isNumeral_of_mem c (List.mem_of_mem_head? hc), _, rfl⟩
  | function f =>
    exact .inr (.inl ⟨isAlpha_of_mem_name f c (List.mem_of_mem_head? hc), f, rfl⟩)
  | operator op =>
    obtain rfl : op.symbol = c := by simpa using hc
    exact .inr (.inr (standsAlone_symbol op))
  | openParen | closeParen =>
    obtain rfl := (by simpa using hc : _ = c)
    exact .inr (.inr (by decide))

/-- A spelling starts with a blank, or with its first lexeme. -/
theorem Spells.head {cs : List Char} {ts : List Token} (h : Spells cs ts) {c : Char}
    (hc : c ∈ cs.head?) :
    isBlank c = true ∨ ∃ t us run, ts = t :: us ∧ Lexeme run t ∧ c ∈ run.head? := by
  cases h with
  | nil hgap => exact .inl (hgap c (List.mem_of_mem_head? hc))
  | @cons gap run rest t us hgap hrun _ =>
    cases gap with
    | cons d gap =>
      obtain rfl : d = c := by simpa using hc
      exact .inl (hgap d List.mem_cons_self)
    | nil =>
      obtain ⟨d, ds, rfl⟩ := List.exists_cons_of_ne_nil hrun.ne_nil
      exact .inr ⟨t, us, d :: ds, rfl, hrun, hc⟩

/-- A spelling that starts with a digit or a point starts with a number. -/
theorem Spells.number_of_head {cs : List Char} {ts : List Token} (h : Spells cs ts) {c : Char}
    (hc : c ∈ cs.head?) (hnumeral : isNumeral c = true) : ∃ v us, ts = .number v :: us := by
  rcases h.head hc with hblank | ⟨t, us, run, rfl, hrun, hhead⟩
  · simp [isBlank_eq_false_of_isNumeral hnumeral] at hblank
  · rcases hrun.head hhead with ⟨-, v, rfl⟩ | ⟨halpha, -⟩ | halone
    · exact ⟨v, us, rfl⟩
    · simp [isNumeral_eq_false_of_isAlpha halpha] at hnumeral
    · simp [(standsAlone_iff.mp halone).2.1] at hnumeral

/-- A spelling that starts with a letter starts with a name. -/
theorem Spells.function_of_head {cs : List Char} {ts : List Token} (h : Spells cs ts) {c : Char}
    (hc : c ∈ cs.head?) (halpha : c.isAlpha = true) : ∃ f us, ts = .function f :: us := by
  rcases h.head hc with hblank | ⟨t, us, run, rfl, hrun, hhead⟩
  · simp [isBlank_eq_false_of_isAlpha halpha] at hblank
  · rcases hrun.head hhead with ⟨hnumeral, -⟩ | ⟨-, f, rfl⟩ | halone
    · simp [isNumeral_eq_false_of_isAlpha halpha] at hnumeral
    · exact ⟨f, us, rfl⟩
    · simp [(standsAlone_iff.mp halone).2.2] at halpha

/-! ## Reading back -/

/-- A spelling of a token that does not merge with what follows is read as the token. -/
theorem lex_lexeme_append {run rest : List Char} {t : Token} {ts : List Token} (h : Lexeme run t)
    (hrest : Spells rest ts) (hts : ∀ u ∈ ts.head?, ¬ t.Merges u) :
    lex (run ++ rest) = (lex rest).map (t :: ·) := by
  cases h with
  | number hrun hfinite =>
    -- The run of the number ends here: another number would follow, and the two would merge.
    have hstop : ∀ c ∈ rest.head?, isNumeral c = false := by
      intro c hc
      rw [Bool.eq_false_iff]
      intro hnumeral
      obtain ⟨v, us, rfl⟩ := hrest.number_of_head hc hnumeral
      exact hts _ rfl trivial
    have htoken := numberToken_of_literal hrun hfinite
    have hnumeral := hrun.isNumeral_of_mem
    obtain ⟨c, cs, rfl, hstart⟩ := hrun.exists_cons
    rw [lex_number_append hstart hnumeral hstop, htoken]
    rfl
  | function f =>
    -- So does the run of a name.
    have hstop : ∀ c ∈ rest.head?, c.isAlpha = false := by
      intro c hc
      rw [Bool.eq_false_iff]
      intro halpha
      obtain ⟨g, us, rfl⟩ := hrest.function_of_head hc halpha
      exact hts _ rfl trivial
    have htoken := wordToken_name f
    have halpha := isAlpha_of_mem_name f
    obtain ⟨c, cs, hname⟩ := List.exists_cons_of_ne_nil (Lexeme.function f).ne_nil
    rw [hname] at htoken halpha ⊢
    rw [lex_word_append halpha hstop, htoken]
    rfl
  | operator op => exact lex_symbol (standsAlone_symbol op) (symbolToken_symbol op) rest
  | openParen => exact lex_symbol (by decide) rfl rest
  | closeParen => exact lex_symbol (by decide) rfl rest

/-- **A spelling is read back**, if no two of its neighbours merge. -/
theorem lex_of_spells {cs : List Char} {ts : List Token} (h : Spells cs ts)
    (hts : ts.IsChain fun t u => ¬ t.Merges u) : lex cs = .ok ts := by
  induction h with
  | @nil gap hgap =>
    have hread := lex_blanks hgap []
    rwa [List.append_nil, lex_nil] at hread
  | cons hgap hrun hrest ih =>
    obtain ⟨hhead, htail⟩ := List.isChain_cons.mp hts
    rw [List.append_assoc, lex_blanks hgap, lex_lexeme_append hrun hrest hhead, ih htail]
    rfl

/-! ## Expressions -/

/-- An operator keeps the lexemes around it apart. -/
theorem isChain_append_operator {ts us : List Token} {c : Char}
    (hts : ts.IsChain fun t u => ¬ t.Merges u) (hus : us.IsChain fun t u => ¬ t.Merges u) :
    (ts ++ .operator c :: us).IsChain fun t u => ¬ t.Merges u := by
  rw [List.isChain_append, List.isChain_cons]
  refine ⟨hts, ⟨fun u _ => id, hus⟩, ?_⟩
  rintro t _ u ⟨⟩
  cases t <;> exact id

/-- Parentheses keep what they enclose apart from the rest. -/
theorem isChain_parens {ts : List Token} (hts : ts.IsChain fun t u => ¬ t.Merges u) :
    (Token.openParen :: ts ++ [Token.closeParen]).IsChain fun t u => ¬ t.Merges u := by
  rw [List.cons_append, List.isChain_cons, List.isChain_append]
  refine ⟨fun u _ => id, hts, List.isChain_singleton _, ?_⟩
  rintro t _ u ⟨⟩
  cases t <;> exact id

/-- No two neighbours in an expression merge. -/
theorem Grammar.Derives.isChain {phrase : Grammar.Phrase} {ts : List Token} {e : Expression}
    (h : Grammar.Derives phrase ts e) : ts.IsChain fun t u => ¬ t.Merges u := by
  induction h with
  | number v => exact List.isChain_singleton _
  | call f _ ih =>
    rw [List.cons_append, List.isChain_cons]
    refine ⟨?_, isChain_parens ih⟩
    rintro u ⟨⟩
    exact id
  | group _ ih => exact isChain_parens ih
  | unsigned _ ih | base _ ih | factor _ ih | term _ ih => exact ih
  | negate _ ih => exact List.isChain_cons.mpr ⟨fun u _ => id, ih⟩
  | power _ _ ihd ihe => exact isChain_append_operator ihd ihe
  | product _ _ _ _ ihd ihe => exact isChain_append_operator ihd ihe
  | sum _ _ _ _ ihd ihe => exact isChain_append_operator ihd ihe

end Calculator
