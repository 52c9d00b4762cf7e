import Calculator.Proofs.Decimal.Faithful
import Calculator.Proofs.Display.Canonical
import Calculator.Proofs.Evaluation.Meaning
import Calculator.Proofs.Token.Line

/-!
# Typing numbers in

A number on the display can be typed in again, if it is shown in full; and a number that is typed in as
the display would write it is shown as it was typed.

* `outcome_of_literal` and `outcome_of_scientific` say what becomes of a number that is typed in;
* `display_typed_back` is about what is shown and then typed;
* `display_as_typed` is about what is typed and then shown.
-/

namespace Calculator

/-! ## Numbers that are typed in -/

section

variable (lib : MathLibrary) (mode : AngleMode)

/-- An evaluation that has a value has not failed. -/
theorem Evaluation.of_outcome_eq_ok {e : Evaluation} {v : Float} (h : e.outcome = .ok v) :
    e.failure? = none ∧ e.value = v := by
  rw [failure?, value, h]
  exact ⟨rfl, rfl⟩

/-- A sign is read as a token of its own. -/
theorem lex_withSign (negative : Bool) (cs : List Char) :
    lex (withSign negative cs)
      = (lex cs).map ((if negative then [Token.operator '-'] else []) ++ ·) := by
  cases negative with
  | false => cases hcs : lex cs <;> simp [withSign, Except.map, hcs]
  | true => exact lex_minus cs

/-- **A number that is typed in** comes to the double nearest to it, with its sign. -/
theorem outcome_of_literal {text : String} {negative : Bool} {cs : List Char} {d : Decimal} {v : Float}
    (htext : text.toList = withSign negative cs) (hd : Literal cs d) (hv : d.ReadAs v) :
    (evaluate lib mode text).outcome = .ok (if negative then -v else v) := by
  have htokens : tokenize text
      = .ok ((if negative then [Token.operator '-'] else []) ++ [.number v]) := by
    rw [tokenize, htext, lex_withSign, (Lexeme.of_readAs hd hv).lex_eq]
    rfl
  rw [outcome_evaluate, calculate_outcome lib mode htokens (by simp)]
  -- The postfix order is the number, and the unary minus behind it if there is one.
  cases negative <;> rfl

/-- An exponent does not start with a letter. -/
theorem IsInteger.isAlpha_head {cs : List Char} {i : Int} (h : IsInteger cs i) :
    ∀ c ∈ cs.head?, c.isAlpha = false := by
  intro c hc
  cases h with
  | whole hcs =>
    have hnumeral := isNumeral_iff.mpr (.inl (hcs.isDigit c (List.mem_of_mem_head? hc)))
    rw [Bool.eq_false_iff]
    intro halpha
    rw [isNumeral_eq_false_of_isAlpha halpha] at hnumeral
    cases hnumeral
  | minus _ _ =>
    obtain rfl : '-' = c := by simpa using hc
    decide

/-- **A number with an exponent is no expression**, as its `e` is taken for a name. -/
theorem lex_scientific {cs : List Char} {d : Decimal} (h : Scientific cs d) :
    lex cs = .error (.unknownIdentifier "e") := by
  cases h with
  | @mk mantissa power m e hmantissa _ hhigh hpower =>
    have hnumber : ∃ t, numberToken mantissa = .ok t := by
      have hread := Decimal.readAs_of_lt (d := m) (by linarith)
      exact ⟨_, numberToken_of_literal hmantissa.literal hread.isFinite⟩
    have hname : lex ('e' :: power) = .error (.unknownIdentifier "e") := by
      have hletter : ∀ f : NamedFunction, ['e'] ≠ f.name.toList := fun f => by cases f <;> decide
      have hword := @lex_word_append 'e' [] power (by simp) hpower.isAlpha_head
      rw [wordToken_of_ne hletter] at hword
      exact hword
    have hmark : ∀ c ∈ ('e' :: power).head?, isNumeral c = false := by
      rintro c ⟨⟩
      decide
    have hall := hmantissa.literal.isNumeral_of_mem
    obtain ⟨t, ht⟩ := hnumber
    obtain ⟨c, run, rfl, hstart⟩ := hmantissa.literal.exists_cons
    rw [lex_number_append hstart hall hmark, ht, hname]
    rfl

/-- A number with an exponent is refused, with a sign or without. -/
theorem outcome_of_scientific {text : String} {negative : Bool} {cs : List Char} {d : Decimal}
    (htext : text.toList = withSign negative cs) (h : Scientific cs d) :
    (evaluate lib mode text).outcome = .error (.lexical (.unknownIdentifier "e")) := by
  have htokens : tokenize text = .error (.unknownIdentifier "e") := by
    rw [tokenize, htext, lex_withSign, lex_scientific h]
    rfl
  rw [outcome_evaluate, calculate, htokens]

/-! ## The display, typed in -/

/-- **A result that is shown in full**, typed in, comes to the rounded result, bit for bit. -/
theorem outcome_of_plain {x : Float} (hx : Double.isFinite x = true) {negative : Bool} {cs : List Char}
    {d : Decimal} (htext : (display x).toList = withSign negative cs) (hplain : Plain cs d)
    (hpos : 0 < d.value) (hshown : d.signed negative = shownNumber x) :
    (evaluate lib mode (display x)).outcome = .ok (rounded x) := by
  obtain ⟨hfinite, -, -⟩ := rounded_spec hx
  have hrank := Double.isFinite_iff.mp hfinite
  obtain ⟨hsign, hvalue⟩ := Decimal.signed_inj hpos hshown
  have hself := Double.ofRank_rank hrank.le
  have hrounds : Double.Rounds (Double.rank (rounded x)) d.value := by
    rw [hvalue]
    exact shortest_rounds _
  rw [← hsign] at hself
  generalize Double.rank (rounded x) = k at hrank hself hrounds
  -- The magnitude is read, and the unary minus gives it the sign.
  rw [outcome_of_literal lib mode htext hplain.literal (Decimal.readAs_ofRank hrank hrounds), ← hself]
  cases negative with
  | false => rfl
  | true => exact congrArg Except.ok (Double.neg_ofRank false hrank)

/-- A number in full has no exponent. -/
theorem Plain.not_mem_withSign {cs : List Char} {d : Decimal} (h : Plain cs d) (negative : Bool) :
    'e' ∉ withSign negative cs := by
  rw [mem_withSign_iff (by decide)]
  exact fun hmark => absurd (h.literal.isNumeral_of_mem _ hmark) (by decide)

/-- A number with an exponent shows it. -/
theorem Scientific.mem_withSign {cs : List Char} {d : Decimal} (h : Scientific cs d)
    (negative : Bool) : 'e' ∈ withSign negative cs := by
  rw [mem_withSign_iff (by decide)]
  cases h
  simp

/-- **A result can be typed back.** What the display shows of a finite result is an expression if it has
no exponent: it comes to a value that is shown by the same text. With an exponent it is refused for its
`e`. -/
theorem display_typed_back {x : Float} (hx : Double.isFinite x = true) :
    ('e' ∉ (display x).toList →
        (evaluate lib mode (display x)).failure? = none
          ∧ display (evaluate lib mode (display x)).value = display x)
      ∧ ('e' ∈ (display x).toList →
        (evaluate lib mode (display x)).outcome = .error (.lexical (.unknownIdentifier "e"))) := by
  have hcanonical := canonical_display hx
  generalize htext : (display x).toList = text at hcanonical ⊢
  generalize hshown : shownNumber x = shown at hcanonical
  cases hcanonical with
  | zero =>
    have hzero : display x = "0" := String.toList_inj.mp htext
    have hunsigned : (display x).toList = withSign false ['0'] := htext
    obtain ⟨hnone, hvalue⟩ := Evaluation.of_outcome_eq_ok (outcome_of_literal lib mode hunsigned
      plain_zero.literal (Decimal.readAs_of_lt (by simp [Decimal.value])))
    refine ⟨fun _ => ⟨hnone, ?_⟩, fun hmark => absurd hmark (by decide)⟩
    rw [hvalue, hzero]
    decide +kernel
  | plain negative hplain _ hlow _ =>
    have hpos : (0 : ℚ) < 10 ^ (-6 : Int) := by positivity
    obtain ⟨hnone, hvalue⟩ := Evaluation.of_outcome_eq_ok
      (outcome_of_plain lib mode hx htext hplain (hpos.trans_le hlow) hshown.symm)
    refine ⟨fun _ => ⟨hnone, ?_⟩, fun hmark => absurd hmark (hplain.not_mem_withSign negative)⟩
    rw [hvalue, display_rounded hx]
  | scientific negative hscientific _ _ =>
    exact ⟨fun hfull => absurd (hscientific.mem_withSign negative) hfull,
      fun _ => outcome_of_scientific lib mode htext hscientific⟩

end

/-- A third with a sign is typed back with the digits that are shown, and one that is too small to be
shown in full is refused. -/
theorem display_typed_back_thirds :
    let x := (⟨3333333333333333, -16⟩ : Decimal).toFloat true
    let y := (⟨3333333333333333, -23⟩ : Decimal).toFloat true
    Double.isFinite x = true ∧ display x = "-0.333333333333"
      ∧ Double.isFinite y = true ∧ display y = "-3.3333e-8"
      ∧ ((evaluate .native .degrees (display x)).failure? = none
        ∧ display (evaluate .native .degrees (display x)).value = display x)
      ∧ (evaluate .native .degrees (display y)).outcome
          = .error (.lexical (.unknownIdentifier "e")) := by
  intro x y
  have hx : Double.isFinite x = true := by decide +kernel
  have hy : Double.isFinite y = true := by decide +kernel
  have htext : display x = "-0.333333333333" := by decide +kernel
  have htext' : display y = "-3.3333e-8" := by decide +kernel
  have hfull : 'e' ∉ (display x).toList := by
    rw [htext]
    decide
  have hmark : 'e' ∈ (display y).toList := by
    rw [htext']
    decide
  exact ⟨hx, htext, hy, htext', (display_typed_back .native .degrees hx).1 hfull,
    (display_typed_back .native .degrees hy).2 hmark⟩

/-! ## Typed numbers on the display -/

/-- A double whose shortest decimal has no more places than the display shows it. -/
theorem shownNumber_of_shortest {v : Float} {d : Decimal} (hsign : Double.isNegative v = false)
    (hplaces : -(displayPlaces : Int) ≤ d.exponent)
    (hvalue : (shortest (Double.rank v)).value = d.value) : shownNumber v = d.value := by
  obtain ⟨n, hn⟩ := exists_eq_of_coarse hplaces
  have hkept : rounded v = v := by
    apply rounded_of_le_exponent
    rcases Nat.eq_zero_or_pos (Double.rank v) with hzero | hpos
    · exact .inl hzero
    · exact .inr (le_exponent_shortest hpos (hvalue.trans hn))
  rw [shownNumber, hkept, hsign]
  exact hvalue

/-- **A number is shown as it is typed** if it is typed without superfluous zeros and with at most twelve
decimal places, is zero or at least `10⁻⁶` and below `10²¹`, and has at most fifteen significant digits
or is a whole number up to `2⁵³`. -/
theorem display_as_typed (lib : MathLibrary) (mode : AngleMode) {text : String} {d : Decimal}
    (hplain : Plain text.toList d) (hplaces : -(displayPlaces : Int) ≤ d.exponent)
    (hrange : d.value = 0 ∨ (10 : ℚ) ^ (-6 : Int) ≤ d.value ∧ d.value < 10 ^ 21)
    (hdigits : significantDigits text.toList ≤ 15 ∨ ∃ n : Nat, n ≤ 2 ^ 53 ∧ d.value = n) :
    (evaluate lib mode text).failure? = none
      ∧ display (evaluate lib mode text).value = text := by
  have hhigh : d.value < 10 ^ 21 := by
    rcases hrange with hzero | ⟨-, hhigh⟩
    · rw [hzero]
      positivity
    · exact hhigh
  have hread := Decimal.readAs_of_lt hhigh
  have hunsigned : text.toList = withSign false text.toList := rfl
  obtain ⟨hnone, hself⟩ := Evaluation.of_outcome_eq_ok
    (outcome_of_literal lib mode hunsigned hplain.literal hread)
  have hshortest := shortest_of_plain hplain (hrange.imp_right And.left) hdigits hread.rounds
  have hcanonical := canonical_display hread.isFinite
  rw [shownNumber_of_shortest hread.isNegative hplaces hshortest] at hcanonical
  refine ⟨hnone, ?_⟩
  rw [hself]
  exact String.toList_inj.mp (hcanonical.eq_of_plain hplain hrange)

/-- The last whole number before the doubles skip one, and a number whose fifteen digits reach beyond the
point. -/
theorem display_as_typed_whole_and_places :
    let whole := "9007199254740992"
    let places := "899999999999.999"
    Plain whole.toList ⟨2 ^ 53, 0⟩ ∧ significantDigits whole.toList = 16
      ∧ Plain places.toList ⟨899999999999999, -3⟩ ∧ significantDigits places.toList = 15
      ∧ ((evaluate .native .degrees whole).failure? = none
        ∧ display (evaluate .native .degrees whole).value = whole)
      ∧ (evaluate .native .degrees places).failure? = none
      ∧ display (evaluate .native .degrees places).value = places := by
  intro whole places
  have hwhole : Plain whole.toList ⟨2 ^ 53, 0⟩ := by
    have hspelled : Nat.ofDigitChars 10 whole.toList 0 = 2 ^ 53 := by decide +kernel
    rw [← hspelled]
    exact .whole ⟨by decide, List.all_eq_true.mp (by decide), by decide⟩
  have hplaces : Plain places.toList ⟨899999999999999, -3⟩ := by
    have htext : places.toList = "899999999999".toList ++ '.' :: ['9', '9', '9'] := by decide
    have hspelled : Nat.ofDigitChars 10 ("899999999999".toList ++ ['9', '9', '9']) 0
        = 899999999999999 := by decide +kernel
    rw [htext, ← hspelled]
    exact .point ⟨by decide, List.all_eq_true.mp (by decide), by decide⟩ (by decide)
      (List.all_eq_true.mp (by decide)) (by decide)
  refine ⟨hwhole, by decide, hplaces, by decide, ?_, ?_⟩
  · exact display_as_typed .native .degrees hwhole (by decide) (by norm_num [Decimal.value])
      (.inr ⟨2 ^ 53, by decide, by norm_num [Decimal.value]⟩)
  · exact display_as_typed .native .degrees hplaces (by decide) (by norm_num [Decimal.value])
      (.inl (by decide))

end Calculator
