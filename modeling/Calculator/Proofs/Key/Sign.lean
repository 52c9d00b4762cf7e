import Calculator.Proofs.Double.Bits
import Calculator.Proofs.Evaluation.Meaning
import Calculator.Proofs.Rpn.Machine
import Calculator.Session
import Mathlib.Data.List.DropRight

/-!
# The sign key

The sign key changes a text; what counts is what the calculator makes of it. Where an operand stands
at the end of an expression, the expression behind the key means what the expression before it means
with the opposite of this operand, or it is refused for the same reason.

* `Operand` are the texts of operands, `Opens` the texts that an operand can stand behind;
* `LastNumber` is what the key takes for the last number of a text, `toggleSign_append` the text behind
  the key;
* `operand_and_minus_operand` compares an operand without and with a sign, stage by stage.
-/

namespace Calculator

/-! ## Operands at the end of a text -/

/-- Digits with at most one point, and a digit at the end. -/
structure Operand (number : List Char) : Prop where
  isNumeral : ∀ c ∈ number, Calculator.isNumeral c = true
  point : number.count '.' ≤ 1
  digit : ∃ c ∈ number.getLast?, c.isDigit = true

/-- A text is empty, or ends with an operator or an opening parenthesis. -/
def Opens (before : List Char) : Prop :=
  ∀ c ∈ before.getLast?, c ∈ ['+', '-', '*', '/', '^', '(']

theorem Operand.ne_nil {number : List Char} (h : Operand number) : number ≠ [] := by
  rintro rfl
  obtain ⟨c, hc, -⟩ := h.digit
  cases hc

/-- The two shapes of an operand. -/
theorem Operand.shape {number : List Char} (h : Operand number) :
    (number ≠ [] ∧ ∀ c ∈ number, c.isDigit = true)
      ∨ ∃ digits places, number = digits ++ '.' :: places ∧ (∀ c ∈ digits, c.isDigit = true)
          ∧ places ≠ [] ∧ ∀ c ∈ places, c.isDigit = true := by
  have hdigit : ∀ c ∈ number, c ≠ '.' → c.isDigit = true := fun c hc hne =>
    (isNumeral_iff.mp (h.isNumeral c hc)).resolve_right hne
  by_cases hpoint : '.' ∈ number
  · obtain ⟨digits, places, rfl⟩ := List.append_of_mem hpoint
    have hcount := h.point
    rw [List.count_append, List.count_cons_self] at hcount
    have hdigits : '.' ∉ digits := List.count_eq_zero.mp (by omega)
    have hplaces : '.' ∉ places := List.count_eq_zero.mp (by omega)
    refine .inr ⟨digits, places, rfl, fun c hc => ?_, ?_, fun c hc => ?_⟩
    · exact hdigit c (List.mem_append_left _ hc) (fun heq => hdigits (heq ▸ hc))
    · rintro rfl
      obtain ⟨c, hc, hlast⟩ := h.digit
      obtain rfl : '.' = c := by simpa using hc
      exact absurd hlast (by decide)
    · exact hdigit c (List.mem_append_right _ (List.mem_cons_of_mem _ hc))
        (fun heq => hplaces (heq ▸ hc))
  · exact .inl ⟨h.ne_nil, fun c hc => hdigit c hc (fun heq => hpoint (heq ▸ hc))⟩

/-- Digits are an operand. -/
theorem Operand.of_digits {digits : List Char} (hne : digits ≠ [])
    (hdigits : ∀ c ∈ digits, c.isDigit = true) : Operand digits where
  isNumeral c hc := isNumeral_iff.mpr (.inl (hdigits c hc))
  point := by
    rw [List.count_eq_zero.mpr (point_notMem_of_digits hdigits)]
    exact Nat.zero_le 1
  digit := ⟨_, List.getLast?_eq_some_getLast hne, hdigits _ (List.getLast_mem hne)⟩

/-- So are digits with a point before them, whether or not digits stand before the point. -/
theorem Operand.append_point {digits places : List Char} (hdigits : ∀ c ∈ digits, c.isDigit = true)
    (hplaces : Operand places) (hpoint : '.' ∉ places) : Operand (digits ++ '.' :: places) where
  isNumeral c hc := by
    rcases List.mem_append.mp hc with hc | hc
    · exact isNumeral_iff.mpr (.inl (hdigits c hc))
    · rcases List.mem_cons.mp hc with rfl | hc
      · rfl
      · exact hplaces.isNumeral c hc
  point := by
    rw [List.count_append, List.count_cons_self,
      List.count_eq_zero.mpr (point_notMem_of_digits hdigits), List.count_eq_zero.mpr hpoint]
  digit := by
    obtain ⟨c, hc, hdigit⟩ := hplaces.digit
    refine ⟨c, ?_, hdigit⟩
    rw [List.getLast?_append, List.getLast?_cons, hc]
    rfl

/-- An operand spells a number. -/
theorem Operand.exists_literal {number : List Char} (h : Operand number) :
    ∃ d, Literal number d := by
  rcases h.shape with ⟨hne, hdigits⟩ | ⟨digits, places, rfl, hdigits, hne, hplaces⟩
  · exact ⟨_, .whole hne hdigits⟩
  · exact ⟨_, .point (.inr hne) hdigits hplaces⟩

/-- The characters that an operand can stand behind are the operators and the opening parenthesis. -/
theorem mem_opening_iff {c : Char} :
    c ∈ ['+', '-', '*', '/', '^', '('] ↔ (∃ op : BinaryOperator, c = op.symbol) ∨ c = '(' := by
  simp only [List.mem_cons, List.not_mem_nil, or_false]
  constructor
  · rintro (rfl | rfl | rfl | rfl | rfl | rfl)
    exacts [.inl ⟨.add, rfl⟩, .inl ⟨.sub, rfl⟩, .inl ⟨.mul, rfl⟩, .inl ⟨.div, rfl⟩, .inl ⟨.pow, rfl⟩,
      .inr rfl]
  · rintro (⟨op, rfl⟩ | rfl)
    · cases op <;> decide
    · decide

/-- They are in no run. -/
theorem isBreak_of_mem_opening {c : Char} (h : c ∈ ['+', '-', '*', '/', '^', '(']) :
    isBreak c = true := by
  rcases mem_opening_iff.mp h with ⟨op, rfl⟩ | rfl
  · exact isBreak_of_standsAlone (standsAlone_symbol op)
  · decide

theorem opens_nil : Opens [] := by
  simp [Opens]

theorem opens_concat (front : List Char) {c : Char} :
    Opens (front ++ [c]) ↔ c ∈ ['+', '-', '*', '/', '^', '('] := by
  simp [Opens]

/-- A text that an operand can stand behind can be cut before the operand. -/
theorem Opens.cut {before : List Char} (h : Opens before) (more : List Char) : Cut before more :=
  .inl fun c hc => isBreak_of_mem_opening (h c hc)

/-! ## The text behind the key -/

/-- A text is split before its last number: no digit stands before this operand, and no point either
unless the operand holds one itself. -/
structure LastNumber (before number : List Char) : Prop where
  operand : Operand number
  digit : ∀ c ∈ before.getLast?, c.isDigit = false
  point : '.' ∈ number ∨ ∀ c ∈ before.getLast?, c ≠ '.'

/-- Where no digit and no point stands before it, an operand is the last number. -/
theorem LastNumber.of_operand {before number : List Char} (h : Operand number)
    (hbefore : ∀ c ∈ before.getLast?, isNumeral c = false) : LastNumber before number where
  operand := h
  digit c hc := by
    have hnumeral := hbefore c hc
    rw [isNumeral, Bool.or_eq_false_iff] at hnumeral
    exact hnumeral.1
  point := .inr fun c hc hpoint => by
    subst hpoint
    exact absurd (hbefore '.' hc) (by decide)

/-- This is so where an operand can stand. -/
theorem Opens.lastNumber {before number : List Char} (h : Opens before) (hnumber : Operand number) :
    LastNumber before number :=
  .of_operand hnumber fun c hc => (isBreak_iff.mp (isBreak_of_mem_opening (h c hc))).1

/-- The digits at the end of a text, read from its end. -/
theorem span_reverse_digits {front digits : List Char} (hdigits : ∀ c ∈ digits, c.isDigit = true)
    (hfront : ∀ c ∈ front.getLast?, c.isDigit = false) :
    (front ++ digits).reverse.takeWhile Char.isDigit = digits.reverse
      ∧ (front ++ digits).reverse.dropWhile Char.isDigit = front.reverse := by
  have hrun : ∀ c ∈ digits.reverse, c.isDigit = true := by simpa using hdigits
  have hstop : ∀ c ∈ front.reverse.head?, c.isDigit = false := by simpa using hfront
  rw [List.reverse_append]
  exact ⟨takeWhile_append_of_head hrun hstop, dropWhile_append_of_head hrun hstop⟩

/-- The sign key splits a text before its last number. -/
theorem splitLastNumber_append {before number : List Char} (h : LastNumber before number) :
    splitLastNumber (before ++ number) = (before, number) := by
  rcases h.operand.shape with ⟨hne, hdigits⟩ | ⟨digits, places, rfl, hdigits, hne, hplaces⟩
  · -- Without a point the digits reach to what stands before the number, and this is no point.
    obtain ⟨htake, hdrop⟩ := span_reverse_digits hdigits h.digit
    have hpoint : ∀ c ∈ before.reverse.head?, c ≠ '.' := by
      simpa using h.point.resolve_left (point_notMem_of_digits hdigits)
    simp only [splitLastNumber, htake, hdrop]
    split
    case h_1 hnil => exact absurd (List.reverse_eq_nil_iff.mp hnil) hne
    case h_2 rest hrest _ => exact absurd rfl (hpoint '.' (by rw [hrest]; rfl))
    case h_3 => simp
  · -- The digits from the end stop at the point, and the digits before it belong to the number too.
    have hpoint : ∀ c ∈ (before ++ digits ++ ['.']).getLast?, c.isDigit = false := by simp
    obtain ⟨htake, hdrop⟩ := span_reverse_digits hplaces hpoint
    obtain ⟨hwhole, -⟩ := span_reverse_digits hdigits h.digit
    have hsplit : before ++ (digits ++ '.' :: places) = before ++ digits ++ ['.'] ++ places := by simp
    have hback : (before ++ digits ++ ['.']).reverse = '.' :: (before ++ digits).reverse := by simp
    obtain ⟨d, ds, hcons⟩ := List.exists_cons_of_ne_nil (List.reverse_ne_nil_iff.mpr hne)
    have hnumber : d :: ds ++ '.' :: digits.reverse = (digits ++ '.' :: places).reverse := by
      rw [← hcons]
      simp
    rw [← hsplit] at htake hdrop
    simp only [splitLastNumber, htake, hdrop, hback, hwhole, hcons, hnumber]
    rw [List.length_reverse, List.length_append, Nat.add_sub_cancel, List.take_left,
      List.reverse_reverse]

/-- The digits at the end of a text. -/
theorem exists_digits (cs : List Char) :
    ∃ front digits, cs = front ++ digits ∧ (∀ c ∈ digits, c.isDigit = true)
      ∧ ∀ c ∈ front.getLast?, c.isDigit = false := by
  refine ⟨cs.rdropWhile Char.isDigit, cs.rtakeWhile Char.isDigit,
    List.rdropWhile_append_rtakeWhile.symm, fun c hc => List.mem_rtakeWhile_imp hc, ?_⟩
  intro c hc
  obtain ⟨hne, rfl⟩ := List.mem_getLast?_eq_getLast hc
  simpa using List.rdropWhile_last_not Char.isDigit cs hne

/-- A text that ends in a digit has a last number. -/
theorem exists_lastNumber {cs : List Char} (h : ∃ c ∈ cs.getLast?, c.isDigit = true) :
    ∃ before number, cs = before ++ number ∧ LastNumber before number := by
  obtain ⟨front, digits, rfl, hdigits, hfront⟩ := exists_digits cs
  have hne : digits ≠ [] := by
    rintro rfl
    obtain ⟨c, hc, hdigit⟩ := h
    rw [List.append_nil] at hc
    simp [hfront c hc] at hdigit
  have hplaces := Operand.of_digits hne hdigits
  by_cases hpoint : '.' ∈ front.getLast?
  · -- The point before the digits belongs to the number, with the digits before it.
    obtain ⟨front, rfl⟩ := List.getLast?_eq_some_iff.mp hpoint
    obtain ⟨before, whole, rfl, hwhole, hbefore⟩ := exists_digits front
    refine ⟨before, whole ++ '.' :: digits, by simp, ?_, hbefore, .inl (by simp)⟩
    exact .append_point hwhole hplaces (point_notMem_of_digits hdigits)
  · exact ⟨front, digits, rfl, hplaces, hfront, .inr fun c hc heq => hpoint (heq ▸ hc)⟩

/-- Any other text has none. -/
theorem splitLastNumber_of_not_digit {cs : List Char} (h : ∀ c ∈ cs.getLast?, c.isDigit = false) :
    splitLastNumber cs = (cs, []) := by
  rcases List.eq_nil_or_concat' cs with rfl | ⟨init, c, rfl⟩
  · rfl
  · have hc : c.isDigit = false := h c (by simp)
    simp [splitLastNumber, hc]

/-- A minus sign at the end of a text is unary where an operand could stand in its place. -/
theorem endsInUnaryMinus_iff {cs : List Char} :
    endsInUnaryMinus cs = true ↔ ∃ front, cs = front ++ ['-'] ∧ Opens front := by
  rw [endsInUnaryMinus]
  constructor
  · intro h
    split at h
    case h_1 hcs => exact ⟨[], by simpa using congrArg List.reverse hcs, opens_nil⟩
    case h_2 c rest hcs =>
      refine ⟨rest.reverse ++ [c], by simpa using congrArg List.reverse hcs, ?_⟩
      rw [opens_concat, mem_opening_iff]
      simpa [Option.isSome_iff_exists, BinaryOperator.ofChar?_eq_some_iff] using h
    case h_3 => cases h
  · rintro ⟨front, rfl, hfront⟩
    rcases List.eq_nil_or_concat' front with rfl | ⟨init, c, rfl⟩
    · rfl
    · have hc := mem_opening_iff.mp ((opens_concat init).mp hfront)
      simpa [Option.isSome_iff_exists, BinaryOperator.ofChar?_eq_some_iff] using hc

/-- The text behind the key: a unary minus in front of the last number goes, else one comes. -/
theorem toggleSign_of_lastNumber {before number : List Char} (h : LastNumber before number) :
    toggleSign (before ++ number)
      = if endsInUnaryMinus before then before.dropLast ++ number else before ++ '-' :: number := by
  have hwhole : before ++ number ≠ [] := by simp [h.operand.ne_nil]
  simp only [toggleSign, if_neg hwhole, splitLastNumber_append h, if_neg h.operand.ne_nil]

/-- Behind a text that does not end in a digit a minus sign comes, in a parenthesis unless it is the first
character. -/
theorem toggleSign_of_not_digit {cs : List Char} (h : ∀ c ∈ cs.getLast?, c.isDigit = false) :
    toggleSign cs = if cs = [] then ['-'] else cs ++ ['(', '-'] := by
  rw [toggleSign, splitLastNumber_of_not_digit h]
  rfl

/-- The texts behind the key: a minus sign has gone in front of the number at the end, or one has come, or
an operand has been opened behind the text. -/
theorem toggleSign_cases (cs : List Char) :
    (∃ front number, Operand number ∧ cs = front ++ '-' :: number ∧ toggleSign cs = front ++ number)
      ∨ (∃ before number, Operand number ∧ cs = before ++ number
          ∧ toggleSign cs = before ++ '-' :: number)
      ∨ cs = [] ∧ toggleSign cs = ['-']
      ∨ cs ≠ [] ∧ toggleSign cs = cs ++ ['(', '-'] := by
  by_cases hdigit : ∃ d ∈ cs.getLast?, d.isDigit = true
  · obtain ⟨before, number, rfl, hlast⟩ := exists_lastNumber hdigit
    rw [toggleSign_of_lastNumber hlast]
    by_cases hminus : endsInUnaryMinus before = true
    · obtain ⟨front, rfl, -⟩ := endsInUnaryMinus_iff.mp hminus
      refine .inl ⟨front, number, hlast.operand, by simp, ?_⟩
      rw [if_pos hminus, List.dropLast_concat]
    · exact .inr (.inl ⟨before, number, hlast.operand, rfl, if_neg hminus⟩)
  · have hnone : ∀ d ∈ cs.getLast?, d.isDigit = false := by simpa using hdigit
    rw [toggleSign_of_not_digit hnone]
    by_cases hempty : cs = []
    · exact .inr (.inr (.inl ⟨hempty, if_pos hempty⟩))
    · exact .inr (.inr (.inr ⟨hempty, if_neg hempty⟩))

/-- **The text behind the key**, where an operand stands at the end. -/
theorem toggleSign_append {before number : List Char} (hbefore : Opens before)
    (hnumber : Operand number) :
    (∃ front, before = front ++ ['-'] ∧ Opens front
        ∧ toggleSign (before ++ number) = front ++ number)
      ∨ toggleSign (before ++ number) = before ++ '-' :: number := by
  rw [toggleSign_of_lastNumber (hbefore.lastNumber hnumber)]
  by_cases hminus : endsInUnaryMinus before = true
  · obtain ⟨front, rfl, hfront⟩ := endsInUnaryMinus_iff.mp hminus
    refine .inl ⟨front, rfl, hfront, ?_⟩
    rw [if_pos hminus, List.dropLast_concat]
  · exact .inr (if_neg hminus)

/-! ## The tokens -/

/-- A run of digits and points is a number or an error. -/
theorem numberToken_eq (run : List Char) :
    (∃ v, numberToken run = .ok (.number v)) ∨ ∃ e, numberToken run = .error e := by
  by_cases hfinite : Double.isFinite ((literal run).toFloat false) = true
  · exact .inl ⟨_, by simp only [numberToken, if_pos hfinite]; rfl⟩
  · exact .inr ⟨_, by simp only [numberToken, if_neg hfinite]; rfl⟩

/-- An operand alone is one token, unless it is too large. -/
theorem lex_number {number : List Char} (h : Operand number) :
    lex number = (numberToken number).map fun t => [t] := by
  obtain ⟨d, hd⟩ := h.exists_literal
  obtain ⟨c, cs, rfl, hstart⟩ := hd.exists_cons
  have hread := @lex_number_append c cs [] hstart h.isNumeral (by simp)
  rw [List.append_nil, lex_nil] at hread
  rw [hread]
  cases numberToken (c :: cs) <;> simp [Except.bind, Except.map]

/-- An operand at the end of a text is its last token. -/
theorem lex_operand {before number : List Char} (hbefore : Opens before)
    (hnumber : Operand number) :
    lex (before ++ number)
      = (lex before).bind fun ts => (numberToken number).map fun t => ts ++ [t] := by
  rw [lex_append (hbefore.cut number), lex_number hnumber]
  cases lex before with
  | error e => simp [Except.bind]
  | ok ts => cases numberToken number <;> simp [Except.bind, Except.map]

/-- A minus sign in front of the operand is the last token but one. -/
theorem lex_minus_operand {before number : List Char} (hbefore : Opens before)
    (hnumber : Operand number) :
    lex (before ++ '-' :: number)
      = (lex before).bind fun ts => (numberToken number).map fun t => ts ++ [.operator '-', t] := by
  rw [lex_append (hbefore.cut _), lex_minus, lex_number hnumber]
  cases lex before with
  | error e => simp [Except.bind]
  | ok ts => cases numberToken number <;> simp [Except.bind, Except.map]

/-- A token that an operand can stand behind. -/
def Token.Opens (t : Token) : Prop :=
  t = .openParen ∨ ∃ op : BinaryOperator, t = .operator op.symbol

/-- Where an operand can stand behind a text, it can stand behind its tokens. -/
theorem Opens.of_lex {before : List Char} (hbefore : Opens before) {ts : List Token}
    (h : lex before = .ok ts) : ∀ t ∈ ts.getLast?, t.Opens := by
  rcases List.eq_nil_or_concat' before with rfl | ⟨front, c, rfl⟩
  · obtain rfl : [] = ts := by simpa using h
    simp
  · have hc := (opens_concat front).mp hbefore
    -- The last character is a token of its own.
    obtain ⟨t, ht, hopens⟩ : ∃ t, lex [c] = .ok [t] ∧ t.Opens := by
      rcases mem_opening_iff.mp hc with ⟨op, rfl⟩ | rfl
      · refine ⟨_, ?_, .inr ⟨op, rfl⟩⟩
        rw [lex_symbol (standsAlone_symbol op) (symbolToken_symbol op), lex_nil]
        rfl
      · refine ⟨_, ?_, .inl rfl⟩
        rw [lex_symbol (t := .openParen) (by decide) (by decide), lex_nil]
        rfl
    rw [lex_append (cut_cons front (isBreak_of_mem_opening hc) []), ht] at h
    cases hfront : lex front with
    | error e =>
      rw [hfront] at h
      cases h
    | ok us =>
      rw [hfront] at h
      obtain rfl : us ++ [t] = ts := by simpa [Except.bind, Except.map] using h
      simpa using hopens

/-! ## The postfix order -/

namespace Rpn

/-- Behind a token that opens an operand an operand is due. -/
theorem awaitsOperand_of_opens {ts : List Token} (hlast : ∀ t ∈ ts.getLast?, t.Opens) :
    ∀ t ∈ ts.getLast?, t.awaitsOperand = true := by
  intro t ht
  rcases hlast t ht with rfl | ⟨op, rfl⟩ <;> rfl

/-- An operand at the end goes out last before the flush. -/
theorem ofTokens_operand {ts : List Token} {out : List Item} {stack : List Pending}
    (h : scan false [] ts = .ok (out, stack)) (v : Float) :
    ofTokens (ts ++ [.number v]) = (flush stack).map (out ++ .number v :: ·) := by
  rw [ofTokens_eq_scan, scan_append_of_ok h, scan_singleton]
  cases hflush : flush stack <;> simp [step, Except.bind, Except.map, hflush]

/-- A sign before the operand goes out right behind it. -/
theorem ofTokens_minus_operand {ts : List Token} (hlast : ∀ t ∈ ts.getLast?, t.Opens)
    {out : List Item} {stack : List Pending} (h : scan false [] ts = .ok (out, stack)) (v : Float) :
    ofTokens (ts ++ [.operator '-', .number v])
      = (flush stack).map (out ++ .number v :: .operator .negate :: ·) := by
  have hunary : resolve (afterOperand false ts) '-' = some .negate := by
    rw [afterOperand_of_awaits (awaitsOperand_of_opens hlast)]
    rfl
  have hrest : scan (afterOperand false ts) stack [.operator '-', .number v]
      = .ok ([.number v], .operator .negate :: stack) := by
    simp [scan, step, hunary, release_negate_of_scan (awaitsOperand_of_opens hlast) h, Except.bind,
      Except.map]
  rw [ofTokens_eq_scan, scan_append_of_ok h, hrest]
  cases hflush : flush stack <;> simp [flush, Except.bind, Except.map, hflush]

end Rpn

/-! ## The key -/

open Rpn in
/-- An operand without and with a sign, stage by stage: the stages fail alike, or the sign is one more
item right behind the number. -/
theorem operand_and_minus_operand {before number : List Char} (hbefore : Opens before)
    (hnumber : Operand number) :
    (∃ e, lex (before ++ number) = .error e ∧ lex (before ++ '-' :: number) = .error e)
      ∨ (∃ ts us e, lex (before ++ number) = .ok ts ∧ lex (before ++ '-' :: number) = .ok us
          ∧ ofTokens ts = .error e ∧ ofTokens us = .error e)
      ∨ ∃ ts us out v tail, lex (before ++ number) = .ok ts
          ∧ lex (before ++ '-' :: number) = .ok us ∧ numberToken number = .ok (.number v)
          ∧ ofTokens ts = .ok (out ++ .number v :: tail)
          ∧ ofTokens us = .ok (out ++ .number v :: .operator .negate :: tail)
          ∧ ∀ w, .number w ∉ tail := by
  rw [lex_operand hbefore hnumber, lex_minus_operand hbefore hnumber]
  cases hlex : lex before with
  | error e => exact .inl ⟨e, rfl, rfl⟩
  | ok ts =>
    have hlast := hbefore.of_lex hlex
    -- The operand may be too large, the tokens before it may have no postfix order, and a
    -- parenthesis may be left open: each is the same with the sign and without.
    rcases numberToken_eq number with ⟨v, hv⟩ | ⟨e, he⟩
    case inr =>
      rw [he]
      exact .inl ⟨e, rfl, rfl⟩
    rw [hv]
    right
    cases hscan : scan false [] ts with
    | error e =>
      exact .inl ⟨_, _, e, rfl, rfl, ofTokens_append_of_error hscan _,
        ofTokens_append_of_error hscan _⟩
    | ok sent =>
      obtain ⟨out, stack⟩ := sent
      have hplain := ofTokens_operand hscan v
      have hsigned := ofTokens_minus_operand hlast hscan v
      cases hflush : flush stack with
      | error e =>
        rw [hflush] at hplain hsigned
        exact .inl ⟨_, _, e, rfl, rfl, hplain, hsigned⟩
      | ok tail =>
        rw [hflush] at hplain hsigned
        exact .inr ⟨_, _, out, v, tail, rfl, rfl, rfl, hplain, hsigned,
          fun w => not_mem_of_flush hflush w⟩

/-- The outcome of a text with a postfix order is the value of that. -/
theorem calculate_of_ofTokens (lib : MathLibrary) (mode : AngleMode) {text : String}
    {ts : List Token} {item : Rpn.Item} {out tail : List Rpn.Item} (htext : tokenize text = .ok ts)
    (hitems : Rpn.ofTokens ts = .ok (out ++ item :: tail)) :
    (calculate lib mode text).outcome
      = (Rpn.evaluate lib mode (out ++ item :: tail)).mapError .numerical := by
  have hne : ts ≠ [] := by
    rintro rfl
    simp [Rpn.ofTokens, Rpn.convert, Rpn.flush] at hitems
  rw [calculate_outcome lib mode htext hne, hitems]

/-- **The sign key negates the last operand.** The expressions before and after it are refused for the
same reason, in the same stage; or the expression after it comes to what the postfix order of the
expression before it comes to with the opposite of its last number. -/
theorem Session.press_sign_outcome (lib : MathLibrary) (mode : AngleMode) (s : Session)
    {before number : List Char} (hbefore : Opens before) (hnumber : Operand number)
    (htext : s.expression.toList = before ++ number) :
    let toggled := (s.press lib .sign).1.expression
    (∃ e, tokenize s.expression = .error e ∧ tokenize toggled = .error e)
      ∨ (∃ ts us e, tokenize s.expression = .ok ts ∧ tokenize toggled = .ok us
          ∧ Rpn.ofTokens ts = .error e ∧ Rpn.ofTokens us = .error e)
      ∨ ∃ ts out v tail, tokenize s.expression = .ok ts
          ∧ numberToken number = .ok (.number v)
          ∧ Rpn.ofTokens ts = .ok (out ++ .number v :: tail) ∧ (∀ w, .number w ∉ tail)
          ∧ (calculate lib mode toggled).outcome
              = (Rpn.evaluate lib mode (out ++ .number (-v) :: tail)).mapError .numerical := by
  intro toggled
  have htoggled : toggled.toList = toggleSign (before ++ number) := by
    rw [← htext]
    exact String.toList_ofList
  rw [show tokenize s.expression = lex s.expression.toList from rfl, htext]
  rcases toggleSign_append hbefore hnumber with ⟨front, rfl, hfront, htoggle⟩ | htoggle
  · -- The sign goes: the expression before the key is the one with the sign.
    have hafter : tokenize toggled = lex (front ++ number) := by
      rw [tokenize, htoggled, htoggle]
    rw [hafter, List.append_assoc, List.singleton_append]
    rcases operand_and_minus_operand hfront hnumber with ⟨e, h, h'⟩ | ⟨ts, us, e, h, h', hts, hus⟩ |
      ⟨ts, us, out, v, tail, h, h', hv, hts, hus, htail⟩
    · exact .inl ⟨e, h', h⟩
    · exact .inr (.inl ⟨us, ts, e, h', h, hus, hts⟩)
    · refine .inr (.inr ⟨us, out, v, .operator .negate :: tail, h', hv, hus, by simpa using htail, ?_⟩)
      rw [calculate_of_ofTokens lib mode (hafter.trans h) hts, Rpn.evaluate_negate, Double.neg_neg]
  · -- The sign comes: the expression after the key is the one with the sign.
    have hafter : tokenize toggled = lex (before ++ '-' :: number) := by
      rw [tokenize, htoggled, htoggle]
    rw [hafter]
    rcases operand_and_minus_operand hbefore hnumber with ⟨e, h, h'⟩ | ⟨ts, us, e, h, h', hts, hus⟩ |
      ⟨ts, us, out, v, tail, h, h', hv, hts, hus, htail⟩
    · exact .inl ⟨e, h, h'⟩
    · exact .inr (.inl ⟨ts, us, e, h, h', hts, hus⟩)
    · refine .inr (.inr ⟨ts, out, v, tail, h, hv, hts, htail, ?_⟩)
      rw [calculate_of_ofTokens lib mode (hafter.trans h') hus, Rpn.evaluate_negate]

/-- A binary minus in front of the number stays, and the number is subtracted with the other sign. -/
theorem press_sign_behind_subtraction :
    let s : Session := { expression := "3-4", mode := .degrees, theme := .light }
    let toggled := (s.press .native .sign).1.expression
    Opens ['3', '-'] ∧ Operand ['4'] ∧ s.expression.toList = ['3', '-'] ++ ['4']
      ∧ toggled = "3--4"
      ∧ ∃ ts out v tail, tokenize s.expression = .ok ts
          ∧ numberToken ['4'] = .ok (.number v)
          ∧ Rpn.ofTokens ts = .ok (out ++ .number v :: tail) ∧ (∀ w, .number w ∉ tail)
          ∧ (calculate .native .degrees toggled).outcome
              = (Rpn.evaluate .native .degrees (out ++ .number (-v) :: tail)).mapError .numerical := by
  intro s toggled
  have hbefore : Opens ['3', '-'] := by simp [Opens]
  have hnumber : Operand ['4'] := ⟨by simp [isNumeral], by decide, '4', rfl, by decide⟩
  have htext : s.expression.toList = ['3', '-'] ++ ['4'] := by decide +kernel
  have hread : (tokenize s.expression).isOk = true := by decide +kernel
  have hparsed : ((tokenize s.expression).toOption.bind fun ts =>
      (Rpn.ofTokens ts).toOption).isSome = true := by decide +kernel
  refine ⟨hbefore, hnumber, htext, by decide +kernel, ?_⟩
  rcases s.press_sign_outcome .native .degrees hbefore hnumber htext with
    ⟨e, h, -⟩ | ⟨ts, us, e, h, -, hts, -⟩ | h
  · rw [h] at hread
    cases hread
  · rw [h] at hparsed
    simp [Except.toOption, hts] at hparsed
  · exact h

end Calculator
