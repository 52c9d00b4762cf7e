import Calculator.Proofs.Rpn.Balance
import Mathlib.Data.List.Chain

/-!
# The layers of the stack

What waits is in order. Between two parentheses of the stack functions lie on top, and below them
operators, each on one that holds its operands less strongly, or as strongly in a row that is grouped to
the right. This is why what a parenthesis closes and what the end flushes is in postfix order already.

* `Operator.LiesOn` and `Pending.LiesOn` say what may lie directly on what, and `Layered` that a whole
  stack is in order;
* `Layered.release`, `Layered.close` and `layered_of_step` are about one token, `layered_of_scan` is the
  invariant of a scan;
* `HasLayers` are the pieces with functions on top of operators, and `layers_of_scan` says that a stack
  has no others between its parentheses.
-/

namespace Calculator

/-- An operator lies on another one that holds its operands less strongly, or as strongly if it groups
to the right. -/
def Operator.LiesOn (upper lower : Operator) : Prop :=
  lower.precedence < upper.precedence
    ∨ lower.precedence = upper.precedence ∧ upper.associativity = .right

namespace Rpn

/-- An operator that arrives lies on a waiting one that does not go before it. -/
theorem goesBefore_eq_false_iff {waiting arriving : Operator} :
    goesBefore waiting arriving = false ↔ arriving.LiesOn waiting := by
  rw [Bool.eq_false_iff, Ne, goesBefore_iff, Operator.LiesOn]
  cases arriving.associativity <;> simp <;> omega

/-- What may lie directly on what: an operator on no function, and on the operators that it does not
bring out. Functions and parentheses lie on anything, and anything lies on a parenthesis. -/
def Pending.LiesOn : Pending → Pending → Prop
  | .operator upper, .operator lower => upper.LiesOn lower
  | .operator _, .function _ => False
  | _, _ => True

/-- Every entry of a stack may lie on the one below it. -/
def Layered (stack : List Pending) : Prop :=
  stack.IsChain Pending.LiesOn

/-! ## One token -/

/-- What stays when an operator arrives is the lower end of the stack. -/
theorem release_suffix (op : Operator) (stack : List Pending) : (release op stack).2 <:+ stack := by
  induction stack with
  | nil => exact List.suffix_rfl
  | cons top stack ih =>
    cases top with
    | openParen => exact List.suffix_rfl
    | function f => exact ih.trans (List.suffix_cons _ stack)
    | operator waiting =>
      by_cases h : goesBefore waiting op = true
      · simpa [release, h] using ih.trans (List.suffix_cons _ stack)
      · simp [release, h]

/-- The operator may lie on what stays. -/
theorem liesOn_release (op : Operator) (stack : List Pending) :
    ∀ top ∈ (release op stack).2.head?, Pending.LiesOn (.operator op) top := by
  induction stack with
  | nil => simp [release]
  | cons top stack ih =>
    cases top with
    | openParen => simp [release, Pending.LiesOn]
    | function f => exact ih
    | operator waiting =>
      by_cases h : goesBefore waiting op = true
      · simpa [release, h] using ih
      · have hlies := goesBefore_eq_false_iff.mp (Bool.eq_false_iff.mpr h)
        simpa [release, h, Pending.LiesOn] using hlies

/-- What stays when a parenthesis is closed is the lower end of the stack. -/
theorem close_suffix {stack rest : List Pending} {out : List Item} (h : close stack = .ok (out, rest)) :
    rest <:+ stack := by
  induction stack generalizing out with
  | nil => cases h
  | cons top stack ih =>
    cases top with
    | openParen =>
      -- The function that the parentheses were the argument of goes with the parenthesis.
      rcases stack with _ | ⟨_ | f | _, stack⟩ <;> cases h
      · exact List.nil_suffix
      · exact List.suffix_cons _ _
      · exact (List.suffix_cons _ _).trans (List.suffix_cons _ _)
      · exact List.suffix_cons _ _
    | operator _ | function _ =>
      rw [close] at h
      obtain ⟨sent, hstack, hsent⟩ := map_eq_ok_iff.mp h
      cases hsent
      exact (ih hstack).trans (List.suffix_cons _ stack)

/-- An operator that has arrived lies where it may. -/
theorem Layered.release {stack : List Pending} (h : Layered stack) (op : Operator) :
    Layered (.operator op :: (Rpn.release op stack).2) :=
  List.isChain_cons.mpr ⟨liesOn_release op stack, List.IsChain.suffix h (release_suffix op stack)⟩

/-- A closed parenthesis leaves a stack in order. -/
theorem Layered.close {stack rest : List Pending} {out : List Item} (h : Layered stack)
    (hclose : Rpn.close stack = .ok (out, rest)) : Layered rest :=
  List.IsChain.suffix h (close_suffix hclose)

/-- **One token keeps the stack in order.** -/
theorem layered_of_step {b : Bool} {stack rest : List Pending} {t : Token} {out : List Item}
    (hstack : Layered stack) (h : step b stack t = .ok (out, rest)) : Layered rest := by
  cases t with
  | number v =>
    cases h
    exact hstack
  | function _ | openParen =>
    cases h
    exact List.isChain_cons.mpr ⟨fun _ _ => trivial, hstack⟩
  | operator c =>
    obtain ⟨op, -, hsent⟩ := step_operator_eq_ok_iff.mp h
    cases hsent
    exact hstack.release op
  | closeParen => exact hstack.close h

/-! ## A row of tokens -/

/-- **A scan keeps the stack in order.** -/
theorem layered_of_scan {b : Bool} {stack rest : List Pending} {ts : List Token} {out : List Item}
    (hstack : Layered stack) (h : scan b stack ts = .ok (out, rest)) : Layered rest := by
  induction ts generalizing b stack out with
  | nil =>
    cases h
    exact hstack
  | cons t ts ih =>
    obtain ⟨sent, middle, more, last, hstep, hscan, hsent⟩ := scan_cons_eq_ok_iff.mp h
    cases hsent
    exact ih (layered_of_step hstack hstep) hscan

/-- Told from its top, a piece of a stack is a row of functions and then a row of operators, each of which
lies on the next. -/
def HasLayers (segment : List Pending) : Prop :=
  ∃ (functions : List NamedFunction) (operators : List Operator),
    segment = functions.map .function ++ operators.map .operator ∧ operators.IsChain Operator.LiesOn

/-- A piece in order that holds no parenthesis has these two layers. -/
theorem Layered.hasLayers {segment : List Pending} (h : Layered segment)
    (hnone : .openParen ∉ segment) : HasLayers segment := by
  induction segment with
  | nil => exact ⟨[], [], rfl, List.isChain_nil⟩
  | cons top segment ih =>
    obtain ⟨htop, hsegment⟩ := List.isChain_cons.mp h
    obtain ⟨functions, operators, rfl, hoperators⟩ :=
      ih hsegment fun hmem => hnone (List.mem_cons_of_mem top hmem)
    cases top with
    | openParen => exact absurd List.mem_cons_self hnone
    | function f => exact ⟨f :: functions, operators, rfl, hoperators⟩
    | operator op =>
      -- No function lies below the operator, so that the layer of the functions ends above it.
      cases functions with
      | cons f functions => exact (htop (.function f) rfl).elim
      | nil =>
        refine ⟨[], op :: operators, rfl, List.isChain_cons.mpr ⟨fun lower hlower => ?_, hoperators⟩⟩
        exact htop (.operator lower) (by simpa using hlower)

/-- **What waits is in order.** Behind every row of tokens that can be scanned, be it the beginning of an
expression or not, a piece of the stack that holds no parenthesis has functions on top and below them
operators, each on one that holds its operands less strongly, or as strongly if it groups to the right; and
as many parentheses wait as have been opened and not closed. This is the stack that the conversion goes on
with, whatever comes behind the row. -/
theorem layers_of_scan {ts : List Token} {out : List Item} {stack : List Pending}
    (h : scan false [] ts = .ok (out, stack)) :
    (∀ above segment below, stack = above ++ segment ++ below → .openParen ∉ segment →
        HasLayers segment)
      ∧ stack.count .openParen + ts.count .closeParen = ts.count .openParen
      ∧ ∀ more, ofTokens (ts ++ more)
          = (convert (afterOperand false ts) stack more).map (out ++ ·) := by
  refine ⟨?_, openCount_of_scan h, ofTokens_append_of_ok h⟩
  rintro above segment below rfl hnone
  have hstack : Layered (above ++ segment ++ below) := layered_of_scan List.isChain_nil h
  have hsegment : Layered segment := List.IsChain.infix hstack ⟨above, below, rfl⟩
  exact hsegment.hasLayers hnone

/-- In `2 ^ - 3 ^ sin ( 1 + 2 * sqrt` the sign has gone and the second power lies on the first, the function
lies on both, and what is above the parenthesis has layers of its own. -/
theorem layers_of_open_sine :
    let ts : List Token := [.number 2.0, .operator '^', .operator '-', .number 3.0, .operator '^',
      .function .sin, .openParen, .number 1.0, .operator '+', .number 2.0, .operator '*',
      .function .sqrt]
    let stack : List Pending := [.function .sqrt, .operator (.binary .mul), .operator (.binary .add),
      .openParen, .function .sin, .operator (.binary .pow), .operator (.binary .pow)]
    let out : List Item := [.number 2.0, .number 3.0, .operator .negate, .number 1.0, .number 2.0]
    scan false [] ts = .ok (out, stack)
      ∧ (∀ above segment below, stack = above ++ segment ++ below → .openParen ∉ segment →
        HasLayers segment)
      ∧ stack.count .openParen + ts.count .closeParen = ts.count .openParen
      ∧ ∀ more, ofTokens (ts ++ more)
          = (convert (afterOperand false ts) stack more).map (out ++ ·) := by
  intro ts stack out
  have hscan : scan false [] ts = .ok (out, stack) := by decide +kernel
  exact ⟨hscan, layers_of_scan hscan⟩

end Rpn

end Calculator
