import Calculator.Evaluation
import Calculator.Proofs.Decimal.Reading
import Calculator.Proofs.Token.Language

/-!
# Reading a row of tokens back

Tokens that have been read from a text are written with one space between. The text is another one as a
rule, since a number has many spellings and is written in one of them only; but it has the same tokens,
and so it comes to the same.

* `Lexeme.text` says that a token with a spelling is written as one;
* `lex_line` reads a row of such tokens back;
* `line_reread` is about the tokens of a text, about its working and about its value.
-/

namespace Calculator

/-- **A token that has a spelling is written as one of its spellings.** A number that has one is finite
and has no sign, so that it is written in digits and points only. -/
theorem Lexeme.text {run : List Char} {t : Token} (h : Lexeme run t) : Lexeme t.text.toList t := by
  cases h with
  | @number run d _ hfinite =>
    have hread : d.ReadAs (d.toFloat false) := d.readAs_or_overflows.resolve_right fun hlarge => by
      simp [hlarge.isFinite_toFloat] at hfinite
    obtain ⟨e, hliteral, he⟩ := exists_literal_writeFloat hread.isFinite hread.isNegative
    rw [Token.text, String.toList_ofList]
    exact .of_readAs hliteral he
  | function f => exact .function f
  | operator op =>
    rw [Token.text, Char.toString_eq_singleton, String.toList_singleton]
    exact .operator op
  | openParen => exact .openParen
  | closeParen => exact .closeParen

/-- One lexeme is read as its token. -/
theorem Lexeme.lex_eq {run : List Char} {t : Token} (h : Lexeme run t) : lex run = .ok [t] := by
  have hnone : ∀ c ∈ ([] : List Char), Text.isBlank c = true := by simp
  have hspells : Spells ([] ++ run ++ []) [t] := .cons hnone h (.nil hnone)
  rw [List.append_nil, List.nil_append] at hspells
  exact lex_of_spells hspells (List.isChain_singleton t)

/-- **A row of tokens that have spellings is read back.** The space behind each token ends its lexeme,
whichever token comes next. -/
theorem lex_line {ts : List Token} (h : ∀ t ∈ ts, ∃ run, Lexeme run t) :
    lex (Token.line ts).toList = .ok ts := by
  induction ts with
  | nil => exact lex_nil
  | cons t ts ih =>
    obtain ⟨run, hrun⟩ := h t List.mem_cons_self
    have hfirst : lex t.text.toList = .ok [t] := hrun.text.lex_eq
    cases ts with
    | nil =>
      rw [Token.line, List.map_singleton, String.intercalate_singleton]
      exact hfirst
    | cons u us =>
      have hline : (Token.line (t :: u :: us)).toList
          = t.text.toList ++ ' ' :: (Token.line (u :: us)).toList := by
        simp [Token.line, String.toList_append]
      have hrest := ih fun v hv => h v (List.mem_cons_of_mem t hv)
      rw [hline, lex_append (cut_cons _ (by decide) _), hfirst, lex_blank _ (by decide), hrest]
      rfl

/-- The tokens of a text are read back from how they are written. -/
theorem tokenize_line {text : String} {ts : List Token} (h : tokenize text = .ok ts) :
    tokenize (Token.line ts) = .ok ts :=
  lex_line (lex_eq_ok_iff.mp h).exists_lexeme

/-- **What is shown of the tokens is faithful.** The tokens of a text, written with spaces between, are
read back as they are, and their text comes to what the text came to, with the same report on the way.
So the working of an expression, typed in again, is its own working. -/
theorem line_reread (text : String) :
    (∀ ts, tokenize text = .ok ts →
        tokenize (Token.line ts) = .ok ts
          ∧ ∀ lib mode, calculate lib mode (Token.line ts) = calculate lib mode text)
      ∧ ∀ w, Working.ofText text = .ok w → Working.ofText w.tokens = .ok w := by
  constructor
  · intro ts h
    have hline := tokenize_line h
    refine ⟨hline, fun lib mode => ?_⟩
    rw [calculate, calculate, hline, h]
  · intro w hw
    rw [Working.ofText] at hw
    cases hts : tokenize text with
    | error e =>
      rw [hts] at hw
      cases hw
    | ok ts =>
      cases hitems : Rpn.ofTokens ts with
      | error e =>
        simp only [hts, hitems] at hw
        cases hw
      | ok items =>
        simp only [hts, hitems] at hw
        cases hw
        rw [Working.ofText]
        simp only [tokenize_line hts, hitems]

/-- Zeros in front, a point without digits on one side and a second point in a run are all gone in what
is shown. -/
theorem line_reread_spellings :
    let text := "007+5.*.5-1.2.3"
    let ts : List Token := [.number 7.0, .operator '+', .number 5.0, .operator '*', .number 0.5,
      .operator '-', .number 1.2]
    let w : Working := ⟨"7 + 5 * 0.5 - 1.2", "7 5 0.5 * + 1.2 -"⟩
    tokenize text = .ok ts ∧ Working.ofText text = .ok w
      ∧ (tokenize (Token.line ts) = .ok ts
        ∧ ∀ lib mode, calculate lib mode (Token.line ts) = calculate lib mode text)
      ∧ Working.ofText w.tokens = .ok w := by
  intro text ts w
  have hts : tokenize text = .ok ts := by decide +kernel
  have hw : Working.ofText text = .ok w := by decide +kernel
  exact ⟨hts, hw, (line_reread text).1 ts hts, (line_reread text).2 w hw⟩

end Calculator
