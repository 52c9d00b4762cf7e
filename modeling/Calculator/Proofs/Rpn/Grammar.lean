import Calculator.Expression.Grammar
import Calculator.Proofs.Rpn.PostOrder
import Calculator.Proofs.Rpn.Scan

/-!
# The postfix order of expressions

The conversion agrees with the grammar: tokens that the grammar generates are brought into the
post-order of the tree that they stand for.

A phrase of one kind, read above a stack that no operator of that kind of phrase disturbs, sends out a
beginning of the post-order and leaves the rest of it waiting, as operators of that kind. This is the
invariant `Leaves`, and it is kept by every rule of the grammar.

* `Holds` are the stacks that are not disturbed, `Leaves` is the invariant;
* `Derives.leaves` is the invariant of all derivations;
* `Derives.ofTokens_eq` is the postfix order of an expression.
-/

namespace Calculator

open Grammar (Phrase Derives)

/-- The least precedence of the operators that a phrase has outside parentheses. -/
def Grammar.Phrase.precedence : Phrase → Nat
  | sum => 2
  | product => 3
  | power => 4
  | signed | atom => 5

namespace Rpn

/-! ## Stacks that are not disturbed -/

/-- No operator of precedence `n` or more takes anything off the stack when it arrives. -/
def Holds (n : Nat) (stack : List Pending) : Prop :=
  ∀ op : Operator, n ≤ op.precedence → release op stack = ([], stack)

theorem Holds.mono {m n : Nat} {stack : List Pending} (h : Holds m stack) (hmn : m ≤ n) :
    Holds n stack :=
  fun op hop => h op (Nat.le_trans hmn hop)

theorem holds_nil (n : Nat) : Holds n [] :=
  fun _ _ => rfl

theorem holds_openParen (n : Nat) (stack : List Pending) : Holds n (.openParen :: stack) :=
  fun _ _ => rfl

/-- The operators that hold their operands most strongly are those that group to the right. -/
theorem associativity_eq_ite (op : Operator) :
    op.associativity = if 4 ≤ op.precedence then .right else .left := by
  cases op with
  | binary op =>
    cases op with
    | add | sub | mul | div | pow => rfl
  | negate => rfl

/-- Operators of one precedence are grouped to one side. -/
theorem associativity_eq_of_precedence_eq {v w : Operator} (h : v.precedence = w.precedence) :
    v.associativity = w.associativity := by
  rw [associativity_eq_ite v, associativity_eq_ite w, h]

/-- A waiting operator holds against those that hold more strongly than it does. -/
theorem holds_operator_of_lt {n : Nat} {op : Operator} (stack : List Pending)
    (h : op.precedence < n) : Holds n (.operator op :: stack) := by
  intro arriving ha
  have hbefore : ¬ goesBefore op arriving = true := by
    rw [goesBefore_iff]
    omega
  simp [release, hbefore]

/-- A waiting operator that groups to the right holds against those of its own precedence too. -/
theorem holds_operator_of_right (op : Operator) (stack : List Pending)
    (h : op.associativity = .right) : Holds op.precedence (.operator op :: stack) := by
  intro arriving ha
  have hbefore : ¬ goesBefore op arriving = true := by
    rw [goesBefore_iff]
    rintro (hlt | ⟨heq, hleft⟩)
    · omega
    · rw [associativity_eq_of_precedence_eq heq, h] at hleft
      cases hleft
  simp [release, hbefore]

/-- An opening parenthesis above an undisturbed stack is closed alone: no function waits below. -/
theorem Holds.close_openParen {n : Nat} {stack : List Pending} (h : Holds n stack) (hn : n ≤ 5) :
    close (.openParen :: stack) = .ok ([], stack) :=
  close_openParen_of_release (h .negate hn)

/-! ## What a row of tokens leaves -/

/-- The tokens send out a beginning of the items, and the rest of them waits above the stack, as
operators of precedence `n` or more. -/
def Leaves (n : Nat) (stack : List Pending) (tokens : List Token) (items : List Item) : Prop :=
  ∃ (out : List Item) (ops : List Operator),
    scan false stack tokens = .ok (out, ops.map .operator ++ stack)
      ∧ (∀ op ∈ ops, n ≤ op.precedence) ∧ out ++ ops.map .operator = items

theorem Leaves.mono {m n : Nat} {stack : List Pending} {tokens : List Token} {items : List Item}
    (h : Leaves n stack tokens items) (hmn : m ≤ n) : Leaves m stack tokens items := by
  obtain ⟨out, ops, hscan, hops, hitems⟩ := h
  exact ⟨out, ops, hscan, fun op hop => Nat.le_trans hmn (hops op hop), hitems⟩

/-- **Closing a parenthesis** brings out all that waits above it, and what the closing brings out
besides. -/
theorem Leaves.closeParen {n : Nat} {stack rest : List Pending} {tokens : List Token}
    {items more : List Item} (h : Leaves n (.openParen :: stack) tokens items)
    (hclose : close (.openParen :: stack) = .ok (more, rest)) :
    scan false (.openParen :: stack) (tokens ++ [.closeParen]) = .ok (items ++ more, rest) := by
  obtain ⟨out, ops, hscan, -, rfl⟩ := h
  rw [scan_append_of_ok hscan, scan_singleton, step, close_operators, hclose]
  simp [Except.map]

/-- **An operator between two operands.** All that waits of the left operand leaves when the
operator arrives, and the operator waits until what waits of the right operand has left. -/
theorem Leaves.binary {n : Nat} {stack : List Pending} {ts us : List Token}
    {left right : List Item} {op : BinaryOperator} {l m : Nat}
    (hleft : Leaves l stack ts left) (hts : afterOperand false ts = true)
    (hbefore : ∀ w : Operator, l ≤ w.precedence → goesBefore w (.binary op) = true)
    (hstack : release (.binary op) stack = ([], stack))
    (hright : Leaves m (.operator (.binary op) :: stack) us right)
    (hop : n ≤ (Operator.binary op).precedence) (hn : n ≤ m) :
    Leaves n stack (ts ++ .operator op.symbol :: us)
      (left ++ right ++ [.operator (.binary op)]) := by
  obtain ⟨out, ops, hscan, hops, rfl⟩ := hleft
  obtain ⟨out', ops', hscan', hops', rfl⟩ := hright
  have hresolve : resolve true op.symbol = some (.binary op) := by
    simp [resolve, BinaryOperator.ofChar?_symbol]
  have hrelease : release (.binary op) (ops.map .operator ++ stack)
      = (ops.map .operator, stack) := by
    rw [release_operators fun w hw => hbefore w (hops w hw), hstack, List.append_nil]
  -- Of the row that waits in the end, the operator is the last: it came before the right operand.
  refine ⟨out ++ ops.map .operator ++ out', ops' ++ [.binary op], ?_, ?_, ?_⟩
  · rw [scan_append_of_ok hscan, hts, scan, step, hresolve]
    simp [hrelease, Except.bind, Except.map, Token.endsOperand, hscan']
  · intro w hw
    rcases List.mem_append.mp hw with hw | hw
    · exact Nat.le_trans hn (hops' w hw)
    · rwa [List.mem_singleton.mp hw]
  · simp

/-- An operator that is grouped to the left, between a left operand of its own precedence and a
right operand that holds more strongly. -/
theorem Leaves.binary_left {stack : List Pending} {ts us : List Token} {left right : List Item}
    (op : BinaryOperator) (hop : (Operator.binary op).associativity = .left)
    (hstack : Holds (Operator.binary op).precedence stack)
    (hleft : Leaves (Operator.binary op).precedence stack ts left)
    (hts : afterOperand false ts = true)
    (hright : ∀ s, Holds ((Operator.binary op).precedence + 1) s →
      Leaves ((Operator.binary op).precedence + 1) s us right) :
    Leaves (Operator.binary op).precedence stack (ts ++ .operator op.symbol :: us)
      (left ++ right ++ [.operator (.binary op)]) :=
  hleft.binary hts (fun _ hw => goesBefore_of_le_left hw hop) (hstack _ (Nat.le_refl _))
    (hright _ (holds_operator_of_lt stack (Nat.lt_succ_self _))) (Nat.le_refl _) (Nat.le_succ _)

end Rpn

namespace Grammar

open Rpn

/-- A generated row ends with an operand, so that a minus sign behind it is a subtraction. -/
theorem Derives.afterOperand {phrase : Phrase} {ts : List Token} {e : Expression}
    (h : Derives phrase ts e) (b : Bool) : Rpn.afterOperand b ts = true := by
  -- A row ends as the last part of its rule does.
  induction h generalizing b with
  | number v => rfl
  | call f _ _ => simp [Token.endsOperand, -List.cons_append]
  | group _ _ => simp [Token.endsOperand, -List.cons_append]
  | unsigned _ ih | base _ ih | factor _ ih | term _ ih => exact ih b
  | negate _ ih => rw [afterOperand_cons]; exact ih _
  | power _ _ _ ih | product _ _ _ _ _ ih | sum _ _ _ _ _ ih =>
    rw [afterOperand_append_cons]; exact ih _

/-- **The invariant of all derivations.** Above a stack that no operator of the phrase disturbs, the
tokens leave the post-order of their tree. -/
theorem Derives.leaves {phrase : Phrase} {ts : List Token} {e : Expression}
    (h : Derives phrase ts e) (stack : List Pending) (hstack : Holds phrase.precedence stack) :
    Leaves phrase.precedence stack ts e.postOrder := by
  -- One case for each rule of the grammar; the stack grows by an operator before a right operand.
  induction h generalizing stack with
  | number v => exact ⟨[.number v], [], rfl, by simp, by simp [Expression.postOrder]⟩
  | @call ts e f _ ih =>
    have hinner := ih (.openParen :: .function f :: stack) (holds_openParen _ _)
    have hscan := hinner.closeParen rfl
    refine ⟨e.postOrder ++ [.function f], [], ?_, by simp, by simp [Expression.postOrder]⟩
    simp only [List.cons_append, scan, step, Except.bind, Token.endsOperand]
    simp [hscan, Except.map]
  | @group ts e _ ih =>
    have hinner := ih (.openParen :: stack) (holds_openParen _ _)
    have hscan := hinner.closeParen (hstack.close_openParen (Nat.le_refl 5))
    refine ⟨e.postOrder, [], ?_, by simp, by simp⟩
    simp only [List.cons_append, scan, step, Except.bind, Token.endsOperand]
    simp [hscan, Except.map]
  | unsigned _ ih => exact ih stack hstack
  | @negate ts e _ ih =>
    have hkept : release .negate stack = ([], stack) := hstack .negate (Nat.le_refl 5)
    obtain ⟨out, ops, hscan, hops, hitems⟩ := ih (.operator .negate :: stack)
      (holds_operator_of_right .negate stack rfl)
    refine ⟨out, ops ++ [.negate], ?_, ?_, ?_⟩
    · rw [scan, step, show resolve false '-' = some .negate from rfl]
      simp [hkept, Except.bind, Except.map, Token.endsOperand, hscan]
    · intro op hop
      rcases List.mem_append.mp hop with hop | hop
      · exact hops op hop
      · rw [List.mem_singleton.mp hop]; exact Nat.le_refl 5
    · rw [Expression.postOrder, ← hitems]; simp
  | base _ ih => exact (ih stack (hstack.mono (by decide))).mono (by decide)
  | @power ts us d e hd _ ihd ihe =>
    have hleft : Leaves 5 stack ts d.postOrder := ihd stack (hstack.mono (by decide))
    have hright := ihe (.operator (.binary .pow) :: stack)
      (holds_operator_of_right (.binary .pow) stack rfl)
    have hbefore : ∀ w : Operator, 5 ≤ w.precedence → goesBefore w (.binary .pow) = true :=
      fun w hw => goesBefore_iff.mpr (.inl hw)
    exact hleft.binary (hd.afterOperand false) hbefore (hstack (.binary .pow) (Nat.le_refl 4)) hright
      (Nat.le_refl 4) (Nat.le_refl 4)
  | factor _ ih => exact (ih stack (hstack.mono (by decide))).mono (by decide)
  | product op hop hd _ ihd ihe =>
    rcases hop with rfl | rfl
    · exact Leaves.binary_left .mul rfl hstack (ihd stack hstack) (hd.afterOperand false) ihe
    · exact Leaves.binary_left .div rfl hstack (ihd stack hstack) (hd.afterOperand false) ihe
  | term _ ih => exact (ih stack (hstack.mono (by decide))).mono (by decide)
  | sum op hop hd _ ihd ihe =>
    rcases hop with rfl | rfl
    · exact Leaves.binary_left .add rfl hstack (ihd stack hstack) (hd.afterOperand false) ihe
    · exact Leaves.binary_left .sub rfl hstack (ihd stack hstack) (hd.afterOperand false) ihe

/-- A generated row of tokens has the post-order of its tree as its postfix order. -/
theorem Derives.ofTokens_eq {ts : List Token} {e : Expression} (h : Derives .sum ts e) :
    Rpn.ofTokens ts = .ok e.postOrder := by
  obtain ⟨out, ops, hscan, -, hitems⟩ := h.leaves [] (holds_nil _)
  rw [ofTokens_eq_scan, hscan, List.append_nil]
  simp [Except.bind, Except.map, flush_operators, hitems]

/-- **Parsing follows the grammar.** A row of tokens that the grammar generates is converted into the
post-order of its tree, and it stands for no other tree. -/
theorem ofTokens_eq_postOrder_of_derives {ts : List Token} {e : Expression}
    (h : Derives .sum ts e) :
    Rpn.ofTokens ts = .ok e.postOrder ∧ ∀ e' : Expression, Derives .sum ts e' → e' = e := by
  refine ⟨h.ofTokens_eq, fun e' h' => Expression.postOrder_injective ?_⟩
  have hsame := h'.ofTokens_eq.symm.trans h.ofTokens_eq
  exact Except.ok.inj hsame

/-- `x ^ - y ^ z` is `x ^ ((-y) ^ z)`: the sign holds more strongly than the power that follows it,
and powers group to the right. -/
theorem ofTokens_power_negate_power :
    let ts : List Token :=
      [.number 2.0, .operator '^', .operator '-', .number 3.0, .operator '^', .number 2.0]
    let e : Expression := .binary .pow (.number 2.0) (.binary .pow (.negate (.number 3.0)) (.number 2.0))
    Derives .sum ts e ∧ Rpn.ofTokens ts = .ok e.postOrder
      ∧ ∀ e' : Expression, Derives .sum ts e' → e' = e := by
  intro ts e
  have hpower : Derives .power [.operator '-', .number 3.0, .operator '^', .number 2.0]
      (.binary .pow (.negate (.number 3.0)) (.number 2.0)) :=
    .power (.negate (.unsigned (.number 3.0))) (.base (.unsigned (.number 2.0)))
  have hts : Derives .sum ts e :=
    .term (.factor (.power (.unsigned (.number 2.0)) hpower))
  exact ⟨hts, ofTokens_eq_postOrder_of_derives hts⟩

end Grammar

end Calculator
