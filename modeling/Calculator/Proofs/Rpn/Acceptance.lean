import Calculator.Proofs.Rpn.Balance

/-!
# What is accepted

The order of the tokens is never checked before they are brought into postfix order: what has a value
there is accepted. So more is accepted than the grammar generates, such as `2 3 +`. Of the rows that
are accepted the grammar generates those in which operands and operators alternate.

* `alternates` is the alternation, which the grammar keeps (`Derives.alternates`);
* `Derives.exists_negate` and `Derives.exists_operator` put a sign and an operand before a row that is
  generated;
* `exists_derives_of_alternates` generates a row that alternates.
-/

namespace Calculator

/-! ## Alternation -/

/-- Whether operands and operators alternate in a row of tokens, given whether an operand has just
ended. Where one is due stands a number, a minus sign, an opening parenthesis or a function with its
opening parenthesis; behind one stands an operator or a closing parenthesis, or the row ends. -/
def alternates : Bool → List Token → Bool
  | false, .number _ :: ts => alternates true ts
  | false, .operator c :: ts => c == '-' && alternates false ts
  | false, .openParen :: ts => alternates false ts
  | false, .function _ :: .openParen :: ts => alternates false ts
  | true, .operator c :: ts => (BinaryOperator.ofChar? c).isSome && alternates false ts
  | true, .closeParen :: ts => alternates true ts
  | true, [] => true
  | _, _ => false

/-- An operator behind an operand makes another one due. -/
theorem alternates_operator (op : BinaryOperator) (ts : List Token) :
    alternates true (.operator op.symbol :: ts) = alternates false ts := by
  simp [alternates, BinaryOperator.ofChar?_symbol]

namespace Grammar

/-- A generated row is an operand for what stands behind it. -/
theorem Derives.alternates_append {phrase : Phrase} {ts : List Token} {e : Expression}
    (h : Derives phrase ts e) (more : List Token) :
    alternates false (ts ++ more) = alternates true more := by
  induction h generalizing more with
  | number v => rfl
  | call f _ ih =>
    rw [List.append_assoc]
    exact ih (.closeParen :: more)
  | group _ ih =>
    rw [List.append_assoc]
    exact ih (.closeParen :: more)
  | unsigned _ ih | base _ ih | factor _ ih | term _ ih => exact ih more
  | negate _ ih => exact ih more
  | power _ _ ihd ihe =>
    rw [List.append_assoc, ihd]
    exact (alternates_operator .pow _).trans (ihe more)
  | product op _ _ _ ihd ihe | sum op _ _ _ ihd ihe =>
    rw [List.append_assoc, ihd]
    exact (alternates_operator op _).trans (ihe more)

/-- **Operands and operators alternate** in a generated row. -/
theorem Derives.alternates {phrase : Phrase} {ts : List Token} {e : Expression}
    (h : Derives phrase ts e) : Calculator.alternates false ts = true := by
  have := h.alternates_append []
  rwa [List.append_nil] at this

end Grammar

/-! ## Rows that are generated -/

namespace Grammar

/-- An operand of any kind is a sum. -/
theorem Derives.sum_of_signed {ts : List Token} {e : Expression} (h : Derives .signed ts e) :
    Derives .sum ts e :=
  .term (.factor (.base h))

/-- A sign before a generated row belongs to its first operand. -/
theorem Derives.exists_negate {phrase : Phrase} {ts : List Token} {e : Expression}
    (h : Derives phrase ts e) (hatom : phrase ≠ .atom) :
    ∃ d, Derives phrase (.operator '-' :: ts) d := by
  -- The first operand is found on the left side of every rule.
  induction h with
  | number _ | call _ _ _ | group _ _ => exact absurd rfl hatom
  | unsigned h _ => exact ⟨_, .negate (.unsigned h)⟩
  | negate h _ => exact ⟨_, .negate (.negate h)⟩
  | base _ ih =>
    obtain ⟨d, hd⟩ := ih (by decide)
    exact ⟨d, .base hd⟩
  | power _ he ih _ =>
    obtain ⟨d, hd⟩ := ih (by decide)
    exact ⟨_, .power hd he⟩
  | factor _ ih =>
    obtain ⟨d, hd⟩ := ih (by decide)
    exact ⟨d, .factor hd⟩
  | product op hop _ he ih _ =>
    obtain ⟨d, hd⟩ := ih (by decide)
    exact ⟨_, .product op hop hd he⟩
  | term _ ih =>
    obtain ⟨d, hd⟩ := ih (by decide)
    exact ⟨d, .term hd⟩
  | sum op hop _ he ih _ =>
    obtain ⟨d, hd⟩ := ih (by decide)
    exact ⟨_, .sum op hop hd he⟩

/-- Only the power holds as strongly as powers do. -/
theorem eq_pow_of_le {op : BinaryOperator}
    (h : Phrase.power.precedence ≤ (Operator.binary op).precedence) : op = .pow := by
  cases op <;> simp_all [Phrase.precedence, Operator.precedence]

/-- An operator holds as strongly as powers do, or it makes a product. -/
theorem power_le_or_product {op : BinaryOperator}
    (h : Phrase.product.precedence ≤ (Operator.binary op).precedence) :
    Phrase.power.precedence ≤ (Operator.binary op).precedence ∨ op = .mul ∨ op = .div := by
  cases op <;> simp_all [Phrase.precedence, Operator.precedence]

/-- An operator holds as strongly as products do, or it makes a sum. -/
theorem product_le_or_sum (op : BinaryOperator) :
    Phrase.product.precedence ≤ (Operator.binary op).precedence ∨ op = .add ∨ op = .sub := by
  cases op <;> simp [Phrase.precedence, Operator.precedence]

/-- An operand and an operator before a generated row: the operator takes the part of the row that
holds more strongly than it does for its right operand. -/
theorem Derives.exists_operator {phrase : Phrase} {ts us : List Token} {d e : Expression}
    (h : Derives phrase ts e) (hus : Derives .signed us d) (op : BinaryOperator)
    (hop : phrase.precedence ≤ (Operator.binary op).precedence) :
    ∃ c, Derives phrase (us ++ .operator op.symbol :: ts) c := by
  -- The part is found on the left side of the rules, down to the phrases of the operator.
  induction h with
  | number _ | call _ _ _ | group _ _ | unsigned _ _ | negate _ _ =>
    cases op <;> simp [Phrase.precedence, Operator.precedence] at hop
  | base h _ =>
    obtain rfl := eq_pow_of_le hop
    exact ⟨_, .power hus (.base h)⟩
  | power h he _ _ =>
    obtain rfl := eq_pow_of_le hop
    exact ⟨_, .power hus (.power h he)⟩
  | factor h ih =>
    rcases power_le_or_product hop with hpower | hproduct
    · obtain ⟨c, hc⟩ := ih hpower
      exact ⟨c, .factor hc⟩
    · exact ⟨_, .product op hproduct (.factor (.base hus)) h⟩
  | product op' hop' _ he ih _ =>
    obtain ⟨c, hc⟩ := ih hop
    rw [← List.cons_append, ← List.append_assoc]
    exact ⟨_, .product op' hop' hc he⟩
  | term h ih =>
    rcases product_le_or_sum op with hproduct | hsum
    · obtain ⟨c, hc⟩ := ih hproduct
      exact ⟨c, .term hc⟩
    · exact ⟨_, .sum op hsum hus.sum_of_signed h⟩
  | sum op' hop' _ he ih _ =>
    obtain ⟨c, hc⟩ := ih hop
    rw [← List.cons_append, ← List.append_assoc]
    exact ⟨_, .sum op' hop' hc he⟩

/-- A row goes on behind an operand, and closes what is open, without another operator. -/
structure Closes (n : Nat) (rest : List Token) : Prop where
  alternates : Calculator.alternates true rest = true
  openBehind : Calculator.openBehind n rest = some 0
  ends : ∀ c ts, rest ≠ .operator c :: ts

/-- A row of tokens starts with a sum, and what is left behind it goes on without another operator. -/
def StartsWithSum (n : Nat) (ts : List Token) : Prop :=
  ∃ sum rest e, ts = sum ++ rest ∧ Derives .sum sum e ∧ Closes n rest

/-- A sum goes on over the operators that follow its first operand. -/
theorem startsWithSum_append {n : Nat} {us ts : List Token} {d : Expression}
    (hus : Derives .signed us d) (halternates : alternates true ts = true)
    (hopen : openBehind n ts = some 0)
    (ih : ∀ c vs, ts = .operator c :: vs → alternates false vs = true → openBehind n vs = some 0 →
      StartsWithSum n vs) : StartsWithSum n (us ++ ts) := by
  by_cases hends : ∀ c vs, ts ≠ .operator c :: vs
  · exact ⟨us, ts, d, rfl, hus.sum_of_signed, halternates, hopen, hends⟩
  · push Not at hends
    obtain ⟨c, vs, rfl⟩ := hends
    rw [alternates, Bool.and_eq_true, Option.isSome_iff_exists] at halternates
    obtain ⟨⟨op, hop⟩, hvs⟩ := halternates
    obtain rfl := BinaryOperator.ofChar?_eq_some_iff.mp hop
    obtain ⟨sum, rest, e, rfl, hsum, hrest⟩ := ih _ vs rfl hvs (by simpa [openBehind] using hopen)
    have hless : Phrase.sum.precedence ≤ (Operator.binary op).precedence := by
      cases op <;> simp [Phrase.precedence, Operator.precedence]
    obtain ⟨e', he'⟩ := hsum.exists_operator hus op hless
    exact ⟨_, rest, e', by simp, he', hrest⟩

/-- A sum in a parenthesis ends where the parenthesis is closed. -/
theorem StartsWithSum.exists_closeParen {n : Nat} {ts : List Token} (h : StartsWithSum (n + 1) ts) :
    ∃ sum us e, ts = sum ++ .closeParen :: us ∧ Derives .sum sum e ∧ alternates true us = true
      ∧ openBehind n us = some 0 := by
  obtain ⟨sum, rest, e, rfl, hsum, halternates, hopen, hends⟩ := h
  rcases rest with _ | ⟨t, us⟩
  · cases hopen
  · cases t with
    | closeParen => exact ⟨sum, us, e, rfl, hsum, halternates, hopen⟩
    | operator c => exact absurd rfl (hends c us)
    | number _ | function _ | openParen => cases halternates

/-- **A row that alternates starts with a sum**, if it closes what is open. -/
theorem startsWithSum_of_alternates {n : Nat} {ts : List Token} (h : alternates false ts = true)
    (hopen : openBehind n ts = some 0) : StartsWithSum n ts := by
  -- The induction is on the length of the row: the sum in a parenthesis and the sum behind an operator
  -- are those of shorter rows.
  induction hlength : ts.length using Nat.strong_induction_on generalizing n ts with
  | _ length ih =>
    have hshorter {m : Nat} {us : List Token} (hus : us.length < ts.length)
        (h : alternates false us = true) (hopen : openBehind m us = some 0) : StartsWithSum m us :=
      ih us.length (hlength ▸ hus) h hopen rfl
    have hbehind (us : List Token) {vs : List Token} {d : Expression} (hts : ts = us ++ vs)
        (hus : Derives .signed us d) (hvs : alternates true vs = true)
        (hopen : openBehind n vs = some 0) : StartsWithSum n (us ++ vs) :=
      startsWithSum_append hus hvs hopen fun c ws hcons => hshorter (by
        rw [hts, hcons, List.length_append, List.length_cons]
        omega)
    match ts, h, hopen with
    | .number v :: us, h, hopen => exact hbehind [.number v] rfl (.unsigned (.number v)) h hopen
    | .operator c :: us, h, hopen =>
      rw [alternates, Bool.and_eq_true, beq_iff_eq] at h
      obtain ⟨rfl, hus⟩ := h
      obtain ⟨sum, rest, e, rfl, hsum, hrest⟩ := hshorter (Nat.lt_succ_self _) hus hopen
      obtain ⟨e', he'⟩ := hsum.exists_negate (by decide)
      exact ⟨_, rest, e', rfl, he', hrest⟩
    | .openParen :: us, h, hopen =>
      have hinside : StartsWithSum (n + 1) us := hshorter (Nat.lt_succ_self _) h hopen
      obtain ⟨sum, vs, e, rfl, hsum, hvs, hclosed⟩ := hinside.exists_closeParen
      have hts : .openParen :: (sum ++ .closeParen :: vs)
          = .openParen :: sum ++ [.closeParen] ++ vs := by simp
      rw [hts]
      exact hbehind _ hts (.unsigned (.group hsum)) hvs hclosed
    | .function f :: .openParen :: us, h, hopen =>
      have hinside : StartsWithSum (n + 1) us :=
        hshorter (by simp only [List.length_cons]; omega) h hopen
      obtain ⟨sum, vs, e, rfl, hsum, hvs, hclosed⟩ := hinside.exists_closeParen
      have hts : .function f :: .openParen :: (sum ++ .closeParen :: vs)
          = .function f :: .openParen :: sum ++ [.closeParen] ++ vs := by simp
      rw [hts]
      exact hbehind _ hts (.unsigned (.call f hsum)) hvs hclosed

/-- **A row that alternates is generated**, if it closes all its parentheses. -/
theorem exists_derives_of_alternates {ts : List Token} (h : alternates false ts = true)
    (hopen : openBehind 0 ts = some 0) : ∃ e, Derives .sum ts e := by
  obtain ⟨sum, rest, e, rfl, hsum, halternates, hclosed, hends⟩ :=
    startsWithSum_of_alternates h hopen
  rcases rest with _ | ⟨t, us⟩
  · exact ⟨e, by simpa using hsum⟩
  · cases t with
    | operator c => exact absurd rfl (hends c us)
    | closeParen => cases hclosed
    | number _ | function _ | openParen => cases halternates

end Grammar

/-! ## What is accepted -/

/-- **What is accepted.** A text that has a value has no tokens, and is worth zero, or the postfix order
of its tokens is the post-order of an expression with this value. The grammar generates the tokens, for
this expression and for no other, exactly when operands and operators alternate. -/
theorem exists_postOrder_of_calculate {lib : MathLibrary} {mode : AngleMode} {text : String}
    {v : Float} (h : (calculate lib mode text).outcome = .ok v) :
    ∃ ts, tokenize text = .ok ts ∧
      (ts = [] ∧ v = 0.0 ∨
        ∃ e : Expression, Rpn.ofTokens ts = .ok e.postOrder ∧ e.value lib mode = .ok v
          ∧ (Grammar.Derives .sum ts e ↔ alternates false ts = true)
          ∧ ∀ d, Grammar.Derives .sum ts d → d = e) := by
  cases htext : tokenize text with
  | error cause =>
    simp only [calculate, htext] at h
    cases h
  | ok ts =>
    refine ⟨ts, rfl, ?_⟩
    by_cases hne : ts = []
    · subst hne
      simp only [calculate, htext] at h
      exact .inl ⟨rfl, (Except.ok.inj h).symm⟩
    · rw [calculate_outcome lib mode htext hne] at h
      cases hitems : Rpn.ofTokens ts with
      | error cause =>
        rw [hitems] at h
        cases h
      | ok items =>
        rw [hitems] at h
        obtain ⟨e, rfl, hvalue⟩ := Rpn.exists_postOrder_of_evaluate (mapError_eq_ok_iff.mp h)
        have hunique (d : Expression) (hd : Grammar.Derives .sum ts d) : d = e :=
          Expression.postOrder_injective (Except.ok.inj (hd.ofTokens_eq.symm.trans hitems))
        refine .inr ⟨e, rfl, hvalue, ⟨fun he => he.alternates, fun halternates => ?_⟩, hunique⟩
        obtain ⟨d, hd⟩ :=
          Grammar.exists_derives_of_alternates halternates (Rpn.openBehind_of_ofTokens hitems)
        rwa [← hunique d hd]

/-- An operator behind its operands is accepted, though the grammar does not generate it. -/
theorem calculate_operator_last :
    (calculate .native .degrees "2 3 +").outcome = .ok 5.0
      ∧ ∃ ts, tokenize "2 3 +" = .ok ts ∧ ts ≠ [] ∧ ¬ ∃ e, Grammar.Derives .sum ts e := by
  refine ⟨by decide +kernel, [.number 2.0, .number 3.0, .operator '+'], by decide +kernel, by simp, ?_⟩
  rintro ⟨e, he⟩
  exact absurd he.alternates (by decide)

/-- The sum of two numbers that stand before their operator. -/
theorem exists_postOrder_operator_last :
    (calculate .native .degrees "2 3 +").outcome = .ok 5.0 ∧
      ∃ ts, tokenize "2 3 +" = .ok ts ∧
        (ts = [] ∧ (5.0 : Float) = 0.0 ∨
          ∃ e : Expression, Rpn.ofTokens ts = .ok e.postOrder ∧ e.value .native .degrees = .ok 5.0
            ∧ (Grammar.Derives .sum ts e ↔ alternates false ts = true)
            ∧ ∀ d, Grammar.Derives .sum ts d → d = e) := by
  have hvalue : (calculate .native .degrees "2 3 +").outcome = .ok 5.0 := by decide +kernel
  exact ⟨hvalue, exists_postOrder_of_calculate hvalue⟩

end Calculator
