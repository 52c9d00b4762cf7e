import Calculator.Proofs.Key.Alphabet
import Calculator.Proofs.Rpn.Balance

/-!
# Why a typed expression is refused

An expression that is typed on the pad and on the keyboard can be wrong in many ways, but it holds no
character that cannot stand in an expression and no symbol that is no operator.

* `eq_point_of_lex` says that in such a text a point is the only character that can be wrong;
* `calculate_eq_lexical_iff` says that a text fails by its characters if it has no tokens;
* `Session.reached_typed` is about all that the keys can lead to.
-/

namespace Calculator

/-- What is left of a text that is cut is an end of it. -/
theorem Splits.suffix {cs rest : List Char} {ts : List Token} (h : Splits cs ts rest) :
    rest <:+ cs := by
  induction h with
  | nil => exact List.suffix_rfl
  | cons _ _ ih => exact ih.trans (List.suffix_append _ _)

/-- **Of the characters that can be typed only a point can be wrong.** -/
theorem eq_point_of_lex {cs : List Char} (hcs : ∀ c ∈ cs, isTyped c = true) {c : Char}
    (h : lex cs = .error (.invalidCharacter c)) : c = '.' := by
  obtain ⟨ts, run, rest, hsplits, hpiece⟩ := lex_eq_error_iff.mp h
  cases hpiece with
  | point _ => rfl
  | invalidCharacter _ hnumeral halpha hop hopen hclose =>
    -- The character is of none of the kinds that can be typed.
    have hmem : c ∈ cs := hsplits.suffix.subset (List.mem_append_left rest List.mem_cons_self)
    rcases cases_of_isTyped (hcs c hmem) with h | ⟨op, h⟩ | h | h | h
    · rw [hnumeral] at h
      cases h
    · exact absurd h (hop op)
    · exact absurd h hopen
    · exact absurd h hclose
    · rw [halpha] at h
      cases h

/-- A text fails by its characters if it has no tokens. -/
theorem calculate_eq_lexical_iff {lib : MathLibrary} {mode : AngleMode} {text : String}
    {e : LexError} :
    (calculate lib mode text).outcome = .error (.lexical e) ↔ tokenize text = .error e := by
  cases htext : tokenize text with
  | error cause => simp [calculate, htext]
  | ok ts =>
    by_cases hne : ts = []
    · simp [calculate, htext, hne]
    · rw [calculate_outcome lib mode htext hne]
      cases Rpn.ofTokens ts with
      | error cause => simp
      | ok items => simp [mapError_eq_error_iff]

/-- The symbols of a text are those of operators. -/
theorem calculate_ne_unknownOperator {lib : MathLibrary} {mode : AngleMode} {text : String}
    {c : Char} : (calculate lib mode text).outcome ≠ .error (.structural (.unknownOperator c)) := by
  intro h
  obtain ⟨ts, htext, hfails⟩ := calculate_eq_structural_iff.mp h
  cases ((ofTokens_eq_error_iff_of_lex htext).mp hfails).1

/-- **What can be typed.** Whatever is pressed on the pad and on the keyboard, the expression holds only
the characters that expressions are written with, and it starts with no operator but the minus sign. So
"equals" finds no wrong character in it but a point, and no symbol that stands for no operator. -/
theorem Session.reached_typed (lib : MathLibrary) (settings : Settings) {keys : List Key}
    (hkeys : ∀ key ∈ keys, key.Offered) :
    let s := reached lib settings keys
    (∀ c ∈ s.expression.toList, isTyped c = true)
      ∧ (∀ c ∈ s.expression.toList.head?, c ∉ ['+', '*', '/', '^'])
      ∧ (∀ c, (s.press lib .equals).1.failure = some (.lexical (.invalidCharacter c)) → c = '.')
      ∧ ∀ c, (s.press lib .equals).1.failure ≠ some (.structural (.unknownOperator c)) := by
  intro s
  have htyped := isTyped_of_reached lib settings hkeys
  refine ⟨htyped, fun c hc => ?_, fun c hfailure => ?_, fun c hfailure => ?_⟩
  · simpa [leads] using leads_of_reached lib settings hkeys c hc
  · have houtcome := failure_of_press_equals lib hfailure
    rw [outcome_evaluate, calculate_eq_lexical_iff] at houtcome
    exact eq_point_of_lex htyped houtcome
  · have houtcome := failure_of_press_equals lib hfailure
    rw [outcome_evaluate] at houtcome
    exact calculate_ne_unknownOperator houtcome

/-- At the start the key of a product does nothing and a sign comes and goes; the point that is left alone
at the end of `5+.` is what is wrong then. -/
theorem Session.reached_typed_point :
    let keys : List Key := [.operator '*', .sign, .digit '5', .sign, .operator '+', .point]
    let s := reached .native {} keys
    (∀ key ∈ keys, key.Offered) ∧ s.expression = "5+."
      ∧ (s.press .native .equals).1.failure = some (.lexical (.invalidCharacter '.'))
      ∧ (∀ c ∈ s.expression.toList, isTyped c = true)
      ∧ (∀ c ∈ s.expression.toList.head?, c ∉ ['+', '*', '/', '^'])
      ∧ (∀ c, (s.press .native .equals).1.failure = some (.lexical (.invalidCharacter c)) → c = '.')
      ∧ ∀ c, (s.press .native .equals).1.failure ≠ some (.structural (.unknownOperator c)) := by
  intro keys s
  have hkeys : ∀ key ∈ keys, key.Offered := by
    have hpad : ∀ key ∈ keys, Button.key key ∈ Button.all := by decide
    exact fun key hkey => .inl (hpad key hkey)
  exact ⟨hkeys, by decide +kernel, by decide +kernel, reached_typed .native {} hkeys⟩

end Calculator
