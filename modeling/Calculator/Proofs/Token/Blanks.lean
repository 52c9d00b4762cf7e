import Calculator.Evaluation
import Calculator.Proofs.Token.Lexing

/-!
# Blanks between lexemes

A blank ends whatever lexeme stands before it. So a text is read on both sides of a blank as if it were
two texts, and how many blanks stand side by side or around the text makes no difference.

* `lex_append_blank` cuts a text at a blank, `lex_gap` puts blanks in where no run goes over;
* `calculate_congr` and `Working.ofText_congr` say that a text counts by its tokens alone;
* `tokenize_blank` puts them together.
-/

namespace Calculator

open Text (isBlank)

/-! ## Cutting at blanks -/

/-- No run goes over a blank. -/
theorem isBreak_of_isBlank {c : Char} (h : isBlank c = true) : isBreak c = true := by
  refine isBreak_iff.mpr ⟨?_, ?_⟩
  · rw [Bool.eq_false_iff]
    intro hnumeral
    simp [isBlank_eq_false_of_isNumeral hnumeral] at h
  · rw [Bool.eq_false_iff]
    intro halpha
    simp [isBlank_eq_false_of_isAlpha halpha] at h

/-- Beside a blank, and at an end of the text, no run goes over. -/
theorem cut_of_isBlank {before after : List Char}
    (h : (∀ c ∈ before.getLast?, isBlank c = true) ∨ ∀ c ∈ after.head?, isBlank c = true) :
    Cut before after :=
  h.imp (fun hlast c hc => isBreak_of_isBlank (hlast c hc))
    (fun hhead c hc => isBreak_of_isBlank (hhead c hc))

/-- **A text can be cut at a blank.** The two parts are read one after the other, each as if it stood
alone. -/
theorem lex_append_blank (cs : List Char) {c : Char} (hc : isBlank c = true) (more : List Char) :
    lex (cs ++ c :: more) = (lex cs).bind fun ts => (lex more).map (ts ++ ·) := by
  rw [lex_append (cut_cons cs (isBreak_of_isBlank hc) more), lex_blank more hc]

/-- **Blanks can be put in** wherever no run goes over. -/
theorem lex_gap {before gap after : List Char} (hgap : ∀ c ∈ gap, isBlank c = true)
    (hcut : Cut before after) : lex (before ++ gap ++ after) = lex (before ++ after) := by
  cases gap with
  | nil => rw [List.append_nil]
  | cons c gap =>
    obtain ⟨hc, hgap⟩ := List.forall_mem_cons.mp hgap
    rw [List.append_assoc, List.cons_append, lex_append_blank before hc, lex_blanks hgap,
      lex_append hcut]

/-! ## What counts of a text -/

/-- Texts with the same tokens have the same outcome, and the same is reported on the way. -/
theorem calculate_congr {text other : String} (h : tokenize text = tokenize other)
    (lib : MathLibrary) (mode : AngleMode) : calculate lib mode text = calculate lib mode other := by
  rw [calculate, calculate, h]

/-- They have the same working. -/
theorem Working.ofText_congr {text other : String} (h : tokenize text = tokenize other) :
    Working.ofText text = Working.ofText other := by
  rw [Working.ofText, Working.ofText, h]

/-- **A blank separates.** The texts on its two sides are read one after the other, each as if it stood
alone, and an error of the first one comes before one of the second. So any blanks that are put in beside
a blank, or at an end of the text, and any that are taken out there, change neither the tokens nor the
working nor the outcome, nor what is reported on the way to it. -/
theorem tokenize_blank :
    (∀ c : Char, isBlank c = true → ∀ text more : String, tokenize (text ++ c.toString ++ more)
        = (tokenize text).bind fun ts => (tokenize more).map (ts ++ ·))
      ∧ ∀ before gap after : String, (∀ d ∈ gap.toList, isBlank d = true) →
          ((∀ d ∈ before.toList.getLast?, isBlank d = true)
            ∨ ∀ d ∈ after.toList.head?, isBlank d = true) →
          tokenize (before ++ gap ++ after) = tokenize (before ++ after)
            ∧ Working.ofText (before ++ gap ++ after) = Working.ofText (before ++ after)
            ∧ ∀ lib mode, calculate lib mode (before ++ gap ++ after)
                = calculate lib mode (before ++ after) := by
  refine ⟨fun c hc text more => ?_, fun before gap after hgap hbeside => ?_⟩
  · have hsplit : (text ++ c.toString ++ more).toList = text.toList ++ c :: more.toList := by simp
    rw [tokenize, hsplit, lex_append_blank text.toList hc]
    rfl
  · have htokens : tokenize (before ++ gap ++ after) = tokenize (before ++ after) := by
      simp only [tokenize, String.toList_append]
      exact lex_gap hgap (cut_of_isBlank hbeside)
    exact ⟨htokens, Working.ofText_congr htokens, calculate_congr htokens⟩

/-- A blank in the middle of a run of digits and points makes two numbers of it, and a second blank beside
it makes no difference; without a blank the run is one number. -/
theorem tokenize_blank_in_run :
    isBlank '\u00a0' = true
      ∧ tokenize ("1." ++ '\u00a0'.toString ++ ".5")
        = ((tokenize "1.").bind fun ts => (tokenize ".5").map (ts ++ ·))
      ∧ (tokenize "1.\u00a0.5").map List.length = .ok 2 ∧ (tokenize "1..5").map List.length = .ok 1
      ∧ tokenize ("1.\u00a0" ++ "\t" ++ ".5") = tokenize ("1.\u00a0" ++ ".5") := by
  have hblank : isBlank '\u00a0' = true := by decide
  have htab : ∀ d ∈ "\t".toList, isBlank d = true := List.all_eq_true.mp (by decide)
  have hlast : ∀ d ∈ "1.\u00a0".toList.getLast?, isBlank d = true := by
    rintro d ⟨⟩
    exact hblank
  exact ⟨hblank, tokenize_blank.1 _ hblank "1." ".5", by decide +kernel, by decide +kernel,
    (tokenize_blank.2 _ _ _ htab (.inl hlast)).1⟩

end Calculator
