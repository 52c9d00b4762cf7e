import Calculator.Proofs.Evaluation.Meaning
import Calculator.Proofs.Token.Language

/-!
# Balanced parentheses

What can be brought into postfix order. A row of tokens fails for one of two causes: a symbol that is no
operator, or parentheses that do not match. Nothing else about the tokens matters, and of several
causes the first in the row is the one that is told.

* `openBehind` counts the parentheses that are open behind a row, `openBehind_of_scan` says that they
  are those that wait on the stack;
* `Refused` tells why a token is refused behind the tokens before it, `Sound` are the rows that no
  token is refused in, `Balanced` those whose parentheses match;
* `step_eq_error_iff` and `exists_scan_iff` are about the scan, `ofTokens_eq_error_iff` is about the
  whole conversion;
* `ofTokens_eq_error_iff_of_lex` says that only the parentheses matter in the tokens of a text.
-/

namespace Calculator

/-! ## Parentheses that are open -/

/-- How many parentheses are open behind a row of tokens, given how many are before it; none of them if
one is closed that is not open. -/
def openBehind : Nat → List Token → Option Nat
  | n, [] => some n
  | n, .openParen :: ts => openBehind (n + 1) ts
  | 0, .closeParen :: _ => none
  | n + 1, .closeParen :: ts => openBehind n ts
  | n, .number _ :: ts | n, .function _ :: ts | n, .operator _ :: ts => openBehind n ts

namespace Rpn

/-- How many opening parentheses wait on a stack. -/
def openCount (stack : List Pending) : Nat :=
  stack.count .openParen

@[simp] theorem openCount_openParen (stack : List Pending) :
    openCount (.openParen :: stack) = openCount stack + 1 := by
  simp [openCount]

@[simp] theorem openCount_operator (op : Operator) (stack : List Pending) :
    openCount (.operator op :: stack) = openCount stack := by
  simp [openCount]

@[simp] theorem openCount_function (f : NamedFunction) (stack : List Pending) :
    openCount (.function f :: stack) = openCount stack := by
  simp [openCount]

/-- An operator that arrives takes no parenthesis off the stack. -/
theorem openCount_release (op : Operator) (stack : List Pending) :
    openCount (release op stack).2 = openCount stack := by
  induction stack with
  | nil => rfl
  | cons top stack ih =>
    cases top with
    | openParen => rfl
    | operator waiting => by_cases h : goesBefore waiting op = true <;> simp [release, h, ih]
    | function f => simpa [release] using ih

/-- The closing of a parenthesis takes one off the stack. -/
theorem openCount_close {stack rest : List Pending} {out : List Item}
    (h : close stack = .ok (out, rest)) : openCount stack = openCount rest + 1 := by
  induction stack generalizing out with
  | nil => cases h
  | cons top stack ih =>
    cases top with
    | openParen =>
      rcases stack with _ | ⟨_ | f | _, stack⟩ <;>
      · cases h
        simp
    | operator _ | function _ =>
      rw [close] at h
      obtain ⟨sent, hstack, hsent⟩ := map_eq_ok_iff.mp h
      cases hsent
      simpa using ih hstack

/-- A stack that can be flushed holds no parenthesis. -/
theorem openCount_of_flush {stack : List Pending} {items : List Item} (h : flush stack = .ok items) :
    openCount stack = 0 := by
  induction stack generalizing items with
  | nil => rfl
  | cons top stack ih =>
    cases top with
    | openParen => cases h
    | operator _ | function _ =>
      rw [flush] at h
      obtain ⟨rest, hstack, -⟩ := map_eq_ok_iff.mp h
      simpa using ih hstack

/-- The parentheses that wait are those that are open, token by token. -/
theorem openBehind_of_step {b : Bool} {stack rest : List Pending} {t : Token} {out : List Item}
    (h : step b stack t = .ok (out, rest)) (ts : List Token) :
    openBehind (openCount stack) (t :: ts) = openBehind (openCount rest) ts := by
  cases t with
  | number _ | function _ | openParen =>
    cases h
    simp [openBehind]
  | closeParen => rw [openCount_close h, openBehind]
  | operator c =>
    obtain ⟨op, -, hsent⟩ := step_operator_eq_ok_iff.mp h
    cases hsent
    simp [openBehind, openCount_release]

/-- **The parentheses that wait behind a scan** are those that are open. -/
theorem openBehind_of_scan {b : Bool} {stack rest : List Pending} {ts : List Token}
    {out : List Item} (h : scan b stack ts = .ok (out, rest)) :
    openBehind (openCount stack) ts = some (openCount rest) := by
  induction ts generalizing b stack out with
  | nil =>
    cases h
    rfl
  | cons t ts ih =>
    obtain ⟨sent, middle, more, last, hstep, hscan, hsent⟩ := scan_cons_eq_ok_iff.mp h
    cases hsent
    rw [openBehind_of_step hstep]
    exact ih hscan

/-- **A row with a postfix order closes all its parentheses**, and none that is not open. -/
theorem openBehind_of_ofTokens {ts : List Token} {items : List Item} (h : ofTokens ts = .ok items) :
    openBehind 0 ts = some 0 := by
  obtain ⟨out, stack, tail, hscan, hflush, -⟩ := ofTokens_eq_ok_iff.mp h
  have hopen := openBehind_of_scan hscan
  rwa [openCount_of_flush hflush] at hopen

/-! ## What fails -/

/-- A symbol stands for an operator wherever it stands, or nowhere. -/
theorem resolve_eq_none_iff {b : Bool} {c : Char} :
    resolve b c = none ↔ ∀ op : BinaryOperator, c ≠ op.symbol := by
  have hchar : BinaryOperator.ofChar? c = none ↔ ∀ op : BinaryOperator, c ≠ op.symbol := by
    simp [Option.eq_none_iff_forall_ne_some, BinaryOperator.ofChar?_eq_some_iff]
  by_cases hminus : (c = '-' && !b) = true
  · -- A minus sign stands for the subtraction, if not for the sign.
    have hc : c = BinaryOperator.sub.symbol := by
      rw [Bool.and_eq_true, decide_eq_true_eq] at hminus
      exact hminus.1
    rw [resolve, if_pos hminus]
    exact iff_of_false (Option.some_ne_none _) fun h => h .sub hc
  · rw [resolve, if_neg hminus, Option.map_eq_none_iff, hchar]

/-- A parenthesis cannot be closed if none waits. -/
theorem close_eq_error_iff {stack : List Pending} {e : ParseError} :
    close stack = .error e ↔ openCount stack = 0 ∧ e = .mismatchedParentheses := by
  induction stack with
  | nil => simp [close, openCount, eq_comm]
  | cons top stack ih =>
    cases top with
    | openParen => rcases stack with _ | ⟨_ | f | _, stack⟩ <;> simp [close]
    | operator _ | function _ => rw [close, map_eq_error_iff, ih]; simp

/-- A stack cannot be flushed if a parenthesis waits. -/
theorem flush_eq_error_iff {stack : List Pending} {e : ParseError} :
    flush stack = .error e ↔ 0 < openCount stack ∧ e = .mismatchedParentheses := by
  induction stack with
  | nil => simp [flush, openCount]
  | cons top stack ih =>
    cases top with
    | openParen => simp [flush, eq_comm]
    | operator _ | function _ => rw [flush, map_eq_error_iff, ih]; simp

end Rpn

/-- The parentheses that are open are those that were, with those that are opened and without those
that are closed. -/
theorem count_of_openBehind {m n : Nat} {ts : List Token} (h : openBehind n ts = some m) :
    m + ts.count .closeParen = n + ts.count .openParen := by
  induction ts generalizing n with
  | nil =>
    obtain rfl := Option.some.inj h
    rfl
  | cons t ts ih =>
    cases t with
    | openParen =>
      have := ih h
      simp only [List.count_cons_self, List.count_cons_of_ne (show Token.openParen ≠ .closeParen by simp)]
      omega
    | closeParen =>
      cases n with
      | zero => cases h
      | succ n =>
        have := ih h
        simp only [List.count_cons_self,
          List.count_cons_of_ne (show Token.closeParen ≠ .openParen by simp)]
        omega
    | number _ | function _ | operator _ =>
      have hts := ih (by simpa [openBehind] using h)
      simpa using hts

/-- Why a token is refused behind the tokens before it: it is a symbol that stands for no operator, or
it closes a parenthesis and as many have been closed as have been opened. -/
inductive Refused (before : List Token) : Token → ParseError → Prop
  | unknownOperator {c : Char} : (∀ op : BinaryOperator, c ≠ op.symbol) →
      Refused before (.operator c) (.unknownOperator c)
  | unopened : before.count .openParen ≤ before.count .closeParen →
      Refused before .closeParen .mismatchedParentheses

/-- No token of a row is refused behind those before it. -/
def Sound (ts : List Token) : Prop :=
  ∀ before t after e, ts = before ++ t :: after → ¬ Refused before t e

/-- The parentheses of a row of tokens match: nowhere have more been closed than opened, and in the end
as many have been. -/
structure Balanced (ts : List Token) : Prop where
  opened : ∀ before, before <+: ts → before.count .closeParen ≤ before.count .openParen
  closed : ts.count .closeParen = ts.count .openParen

namespace Rpn

/-- Behind a scan as many parentheses wait as have been opened and not closed. -/
theorem openCount_of_scan {ts : List Token} {out : List Item} {stack : List Pending}
    (h : scan false [] ts = .ok (out, stack)) :
    openCount stack + ts.count .closeParen = ts.count .openParen := by
  have hcount := count_of_openBehind (openBehind_of_scan h)
  rwa [show openCount [] = 0 from rfl, Nat.zero_add] at hcount

/-- **A token fails if it is refused** behind the tokens that have been scanned. -/
theorem step_eq_error_iff {before : List Token} {out : List Item} {stack : List Pending}
    (h : scan false [] before = .ok (out, stack)) {b : Bool} {t : Token} {e : ParseError} :
    step b stack t = .error e ↔ Refused before t e := by
  have hopen := openCount_of_scan h
  cases t with
  | number _ | function _ | openParen => exact ⟨nofun, nofun⟩
  | closeParen =>
    rw [step, close_eq_error_iff]
    constructor
    · rintro ⟨hzero, rfl⟩
      exact .unopened (by omega)
    · rintro (_ | hclosed)
      exact ⟨by omega, rfl⟩
  | operator c =>
    constructor
    · intro hstep
      rw [step] at hstep
      split at hstep
      case h_1 hop =>
        cases hstep
        exact .unknownOperator (resolve_eq_none_iff.mp hop)
      case h_2 => cases hstep
    · rintro (hop | _)
      rw [step, resolve_eq_none_iff.mpr hop]

/-- **A scan succeeds if no token is refused.** -/
theorem exists_scan_iff {ts : List Token} :
    (∃ sent, scan false [] ts = .ok sent) ↔ Sound ts := by
  constructor
  · rintro ⟨sent, h⟩ before t after e rfl hrefused
    -- What is before the token is scanned, so that the scan fails at the token.
    have hcut := h
    rw [scan_append] at hcut
    obtain ⟨⟨out, stack⟩, hbefore, -⟩ := bind_eq_ok_iff.mp hcut
    have hfails := scan_eq_error_iff.mpr
      ⟨before, t, after, out, stack, rfl, hbefore, (step_eq_error_iff hbefore).mpr hrefused⟩
    rw [h] at hfails
    cases hfails
  · intro h
    cases hscan : scan false [] ts with
    | ok sent => exact ⟨sent, rfl⟩
    | error e =>
      obtain ⟨before, t, after, out, stack, rfl, hbefore, hstep⟩ := scan_eq_error_iff.mp hscan
      exact absurd ((step_eq_error_iff hbefore).mp hstep) (h before t after e rfl)

/-- **What the conversion fails for**: the first token that is refused, or else the parentheses that
are open in the end. -/
theorem ofTokens_eq_error_iff {ts : List Token} {e : ParseError} :
    ofTokens ts = .error e
      ↔ (∃ before t after, ts = before ++ t :: after ∧ Sound before ∧ Refused before t e)
        ∨ Sound ts ∧ ts.count .closeParen < ts.count .openParen ∧ e = .mismatchedParentheses := by
  rw [ofTokens_eq_scan]
  constructor
  · intro h
    rcases bind_eq_error h with hscan | ⟨⟨out, stack⟩, hscan, hflush⟩
    · obtain ⟨before, t, after, out, stack, rfl, hbefore, hstep⟩ := scan_eq_error_iff.mp hscan
      exact .inl ⟨before, t, after, rfl, exists_scan_iff.mp ⟨_, hbefore⟩,
        (step_eq_error_iff hbefore).mp hstep⟩
    · obtain ⟨hopen, rfl⟩ := flush_eq_error_iff.mp (map_eq_error_iff.mp hflush)
      have hopen : 0 < openCount stack := hopen
      have hcount := openCount_of_scan hscan
      exact .inr ⟨exists_scan_iff.mp ⟨_, hscan⟩, by omega, rfl⟩
  · rintro (⟨before, t, after, rfl, hsound, hrefused⟩ | ⟨hsound, hopen, rfl⟩)
    · obtain ⟨⟨out, stack⟩, hbefore⟩ := exists_scan_iff.mpr hsound
      have hfails := scan_eq_error_iff.mpr
        ⟨before, t, after, out, stack, rfl, hbefore, (step_eq_error_iff hbefore).mpr hrefused⟩
      rw [hfails]
      rfl
    · obtain ⟨⟨out, stack⟩, hscan⟩ := exists_scan_iff.mpr hsound
      have hcount := openCount_of_scan hscan
      have hwaits : 0 < openCount stack := by omega
      rw [hscan]
      exact map_eq_error_iff.mpr (flush_eq_error_iff.mpr ⟨hwaits, rfl⟩)

/-- A sound row never closes more parentheses than it opens. -/
theorem count_le_of_sound {ts : List Token} (h : Sound ts) :
    ts.count .closeParen ≤ ts.count .openParen := by
  obtain ⟨⟨out, stack⟩, hscan⟩ := exists_scan_iff.mpr h
  have hcount := openCount_of_scan hscan
  omega

/-- **What the conversion succeeds for**: a sound row that closes all that it opens. -/
theorem exists_ofTokens_iff {ts : List Token} :
    (∃ items, ofTokens ts = .ok items)
      ↔ Sound ts ∧ ts.count .closeParen = ts.count .openParen := by
  constructor
  · rintro ⟨items, h⟩
    obtain ⟨out, stack, tail, hscan, hflush, -⟩ := ofTokens_eq_ok_iff.mp h
    have hcount := openCount_of_scan hscan
    rw [openCount_of_flush hflush] at hcount
    exact ⟨exists_scan_iff.mp ⟨_, hscan⟩, by omega⟩
  · rintro ⟨hsound, hclosed⟩
    cases h : ofTokens ts with
    | ok items => exact ⟨items, rfl⟩
    | error e =>
      rcases ofTokens_eq_error_iff.mp h with ⟨before, t, after, rfl, -, hrefused⟩ | ⟨-, hopen, -⟩
      · exact absurd hrefused (hsound before t after e rfl)
      · omega

end Rpn

/-! ## The tokens of a text -/

/-- What is before a token of a sound row is sound. -/
theorem Sound.of_prefix {before ts : List Token} (h : Sound ts) (hbefore : before <+: ts) :
    Sound before := by
  obtain ⟨after, rfl⟩ := hbefore
  rintro front t more e rfl
  exact h front t (more ++ after) e (by simp)

/-- If every symbol stands for an operator, only the parentheses matter. -/
theorem balanced_iff {ts : List Token}
    (hknown : ∀ c, .operator c ∈ ts → ∃ op : BinaryOperator, c = op.symbol) :
    Balanced ts ↔ Sound ts ∧ ts.count .closeParen = ts.count .openParen := by
  constructor
  · rintro ⟨hopened, hclosed⟩
    refine ⟨?_, hclosed⟩
    rintro before t after e rfl (hop | hclose)
    · obtain ⟨op, hc⟩ := hknown _ (List.mem_append_right before List.mem_cons_self)
      exact hop op hc
    · have hprefix := hopened (before ++ [.closeParen]) ⟨after, by simp⟩
      have hne : List.count Token.openParen [.closeParen] = 0 := by simp
      rw [List.count_append, List.count_append, hne, List.count_singleton_self] at hprefix
      omega
  · rintro ⟨hsound, hclosed⟩
    exact ⟨fun before hbefore => Rpn.count_le_of_sound (hsound.of_prefix hbefore), hclosed⟩

/-- The symbols that are read stand for operators. -/
theorem exists_symbol_of_lex {cs : List Char} {ts : List Token} (h : lex cs = .ok ts) (c : Char)
    (hc : .operator c ∈ ts) : ∃ op : BinaryOperator, c = op.symbol := by
  obtain ⟨spelling, hspelling⟩ := (lex_eq_ok_iff.mp h).exists_lexeme _ hc
  cases hspelling with
  | operator op => exact ⟨op, rfl⟩

/-- If every symbol stands for an operator, nothing but the parentheses can be wrong. -/
theorem eq_mismatchedParentheses {ts : List Token}
    (hknown : ∀ c, .operator c ∈ ts → ∃ op : BinaryOperator, c = op.symbol) {e : ParseError}
    (h : Rpn.ofTokens ts = .error e) : e = .mismatchedParentheses := by
  rcases Rpn.ofTokens_eq_error_iff.mp h with ⟨before, t, after, rfl, -, hrefused⟩ | ⟨-, -, he⟩
  · cases hrefused with
    | unknownOperator hop =>
      obtain ⟨op, hc⟩ := hknown _ (List.mem_append_right before List.mem_cons_self)
      exact absurd hc (hop op)
    | unopened _ => rfl
  · exact he

/-- The tokens of a text have no postfix order if their parentheses do not match, and only then. -/
theorem ofTokens_eq_error_iff_of_lex {cs : List Char} {ts : List Token} (h : lex cs = .ok ts)
    {e : ParseError} :
    Rpn.ofTokens ts = .error e ↔ e = .mismatchedParentheses ∧ ¬ Balanced ts := by
  have hknown := exists_symbol_of_lex h
  rw [balanced_iff hknown, ← Rpn.exists_ofTokens_iff]
  cases hitems : Rpn.ofTokens ts with
  | ok items => simp
  | error cause =>
    obtain rfl := eq_mismatchedParentheses hknown hitems
    simp [eq_comm]

/-- A text fails by its parentheses if its tokens have no postfix order. -/
theorem calculate_eq_structural_iff {lib : MathLibrary} {mode : AngleMode} {text : String}
    {e : ParseError} :
    (calculate lib mode text).outcome = .error (.structural e)
      ↔ ∃ ts, tokenize text = .ok ts ∧ Rpn.ofTokens ts = .error e := by
  cases htext : tokenize text with
  | error cause => simp [calculate, htext]
  | ok ts =>
    by_cases hne : ts = []
    · subst hne
      simp [calculate, htext, Rpn.ofTokens, Rpn.convert, Rpn.flush]
    · rw [calculate_outcome lib mode htext hne]
      cases hitems : Rpn.ofTokens ts with
      | error cause => simp [hitems]
      | ok items => simp [hitems, mapError_eq_error_iff]

/-- So does its working. -/
theorem working_eq_structural_iff {text : String} {e : ParseError} :
    Working.ofText text = .error (.structural e)
      ↔ ∃ ts, tokenize text = .ok ts ∧ Rpn.ofTokens ts = .error e := by
  cases htext : tokenize text with
  | error cause => simp [Working.ofText, htext]
  | ok ts => cases hitems : Rpn.ofTokens ts <;> simp [Working.ofText, htext, hitems]

/-- **Why there is no postfix order.** A row of tokens has one if no token is refused behind those before
it and all parentheses that are opened are closed. Otherwise the first token that is refused tells the
error, a symbol that stands for no operator or a parenthesis that is closed before it is opened; and if
there is none, parentheses are left open. Of a text only the parentheses can be wrong. -/
theorem ofTokens_failure :
    (∀ ts : List Token,
      (∀ c, Rpn.ofTokens ts = .error (.unknownOperator c)
          ↔ ∃ before after, ts = before ++ .operator c :: after ∧ Sound before
              ∧ ∀ op : BinaryOperator, c ≠ op.symbol)
        ∧ (Rpn.ofTokens ts = .error .mismatchedParentheses
          ↔ (∃ before after, ts = before ++ .closeParen :: after ∧ Sound before
                ∧ before.count .openParen ≤ before.count .closeParen)
              ∨ Sound ts ∧ ts.count .closeParen < ts.count .openParen)
        ∧ ((∃ items, Rpn.ofTokens ts = .ok items)
          ↔ Sound ts ∧ ts.count .closeParen = ts.count .openParen))
      ∧ ∀ lib mode text e,
        ((calculate lib mode text).outcome = .error (.structural e)
            ↔ e = .mismatchedParentheses ∧ ∃ ts, tokenize text = .ok ts ∧ ¬ Balanced ts)
          ∧ (Working.ofText text = .error (.structural e)
            ↔ e = .mismatchedParentheses ∧ ∃ ts, tokenize text = .ok ts ∧ ¬ Balanced ts) := by
  constructor
  · intro ts
    refine ⟨fun c => ?_, ?_, Rpn.exists_ofTokens_iff⟩
    · rw [Rpn.ofTokens_eq_error_iff]
      constructor
      · rintro (⟨before, _, after, rfl, hsound, hop | _⟩ | ⟨-, -, he⟩)
        · exact ⟨before, after, rfl, hsound, hop⟩
        · cases he
      · rintro ⟨before, after, rfl, hsound, hop⟩
        exact .inl ⟨before, _, after, rfl, hsound, .unknownOperator hop⟩
    · rw [Rpn.ofTokens_eq_error_iff]
      constructor
      · rintro (⟨before, _, after, rfl, hsound, _ | hclosed⟩ | ⟨hsound, hopen, -⟩)
        · exact .inl ⟨before, after, rfl, hsound, hclosed⟩
        · exact .inr ⟨hsound, hopen⟩
      · rintro (⟨before, after, rfl, hsound, hclosed⟩ | ⟨hsound, hopen⟩)
        · exact .inl ⟨before, _, after, rfl, hsound, .unopened hclosed⟩
        · exact .inr ⟨hsound, hopen, rfl⟩
  · intro lib mode text e
    have hbalance : (∃ ts, tokenize text = .ok ts ∧ Rpn.ofTokens ts = .error e)
        ↔ e = .mismatchedParentheses ∧ ∃ ts, tokenize text = .ok ts ∧ ¬ Balanced ts := by
      constructor
      · rintro ⟨ts, htext, hfails⟩
        obtain ⟨he, hbalanced⟩ := (ofTokens_eq_error_iff_of_lex htext).mp hfails
        exact ⟨he, ts, htext, hbalanced⟩
      · rintro ⟨he, ts, htext, hbalanced⟩
        exact ⟨ts, htext, (ofTokens_eq_error_iff_of_lex htext).mpr ⟨he, hbalanced⟩⟩
    exact ⟨calculate_eq_structural_iff.trans hbalance, working_eq_structural_iff.trans hbalance⟩

end Calculator
