import Calculator.Rpn.OfTokens
import Calculator.Proofs.Outcome
import Mathlib.Data.List.Basic

/-!
# Scanning tokens

The conversion to postfix order is taken apart into the scan of the tokens, which sends items out and
leaves a stack, and the flush of that stack. A scan can be cut anywhere.

* `scan` is the scan, `afterOperand` whether an operand has just ended behind it;
* `scan_append` cuts a scan in two, `ofTokens_eq_scan` is the conversion by it;
* `scan_cons_eq_ok_iff` and `step_operator_eq_ok_iff` tell what a scan that succeeds has done,
  `scan_eq_error_iff` where one fails;
* `Token.awaitsOperand` are the tokens that an operand is due behind: nothing that waits there is
  disturbed by a sign or a parenthesis;
* `release_operators`, `close_operators`, `flush_operators` say how a row of operators leaves the
  stack.
-/

namespace Calculator

/-- Whether an operand is due behind this token. Behind the name of a function a parenthesis is. -/
def Token.awaitsOperand : Token → Bool
  | operator _ | openParen => true
  | number _ | function _ | closeParen => false

namespace Rpn

/-! ## The scan -/

/-- What a row of tokens sends out before the stack is flushed, and the stack it leaves. -/
def scan (afterOperand : Bool) (stack : List Pending) :
    List Token → Except ParseError (List Item × List Pending)
  | [] => .ok ([], stack)
  | token :: tokens =>
    (step afterOperand stack token).bind fun sent =>
      (scan token.endsOperand sent.2 tokens).map fun more => (sent.1 ++ more.1, more.2)

/-- Whether an operand has just ended behind a row of tokens, given whether one has before it. -/
def afterOperand (before : Bool) (tokens : List Token) : Bool :=
  (tokens.getLast?.map Token.endsOperand).getD before

@[simp] theorem scan_nil (b : Bool) (stack : List Pending) : scan b stack [] = .ok ([], stack) := rfl

@[simp] theorem scan_singleton (b : Bool) (stack : List Pending) (token : Token) :
    scan b stack [token] = step b stack token := by
  rw [scan]
  cases step b stack token <;> simp [Except.bind, Except.map]

/-- A row of tokens is scanned if its first token is, and the others above the stack of this one. -/
theorem scan_cons_eq_ok_iff {b : Bool} {stack : List Pending} {token : Token} {tokens : List Token}
    {sent : List Item × List Pending} :
    scan b stack (token :: tokens) = .ok sent
      ↔ ∃ out middle more rest, step b stack token = .ok (out, middle)
          ∧ scan token.endsOperand middle tokens = .ok (more, rest) ∧ sent = (out ++ more, rest) := by
  rw [scan, bind_eq_ok_iff]
  constructor
  · rintro ⟨⟨out, middle⟩, hstep, h⟩
    obtain ⟨⟨more, rest⟩, hscan, hsent⟩ := map_eq_ok_iff.mp h
    exact ⟨out, middle, more, rest, hstep, hscan, hsent.symm⟩
  · rintro ⟨out, middle, more, rest, hstep, hscan, hsent⟩
    exact ⟨(out, middle), hstep, map_eq_ok_iff.mpr ⟨(more, rest), hscan, hsent.symm⟩⟩

/-- The token of an operator brings out what the operator releases, and the operator waits then. -/
theorem step_operator_eq_ok_iff {b : Bool} {stack : List Pending} {c : Char}
    {sent : List Item × List Pending} :
    step b stack (.operator c) = .ok sent
      ↔ ∃ op, resolve b c = some op
          ∧ sent = ((release op stack).1, .operator op :: (release op stack).2) := by
  cases hop : resolve b c <;> simp [step, hop, eq_comm]

@[simp] theorem afterOperand_nil (b : Bool) : afterOperand b [] = b := rfl

@[simp] theorem afterOperand_cons (b : Bool) (token : Token) (tokens : List Token) :
    afterOperand b (token :: tokens) = afterOperand token.endsOperand tokens := by
  cases tokens <;> simp [afterOperand, List.getLast?_cons]

@[simp] theorem afterOperand_concat (b : Bool) (tokens : List Token) (token : Token) :
    afterOperand b (tokens ++ [token]) = token.endsOperand := by
  simp [afterOperand]

/-- Behind a row that is not empty it does not matter what came before it. -/
theorem afterOperand_append_cons (b : Bool) (tokens : List Token) (token : Token)
    (more : List Token) :
    afterOperand b (tokens ++ token :: more) = afterOperand token.endsOperand more := by
  induction tokens generalizing b with
  | nil => simp
  | cons t tokens ih => simp [ih]

/-- **A scan can be cut anywhere.** The second part goes on with the stack of the first. -/
theorem scan_append (b : Bool) (stack : List Pending) (tokens more : List Token) :
    scan b stack (tokens ++ more)
      = (scan b stack tokens).bind fun sent =>
          (scan (afterOperand b tokens) sent.2 more).map fun rest => (sent.1 ++ rest.1, rest.2) := by
  -- The first token is scanned alone, and the rest of the row above the stack that it leaves.
  induction tokens generalizing b stack with
  | nil => cases h : scan b stack more <;> simp [Except.bind, Except.map, h]
  | cons token tokens ih =>
    simp only [List.cons_append, scan, afterOperand_cons]
    cases step b stack token with
    | error e => rfl
    | ok sent =>
      simp only [Except.bind, ih]
      cases scan token.endsOperand sent.2 tokens with
      | error e => rfl
      | ok rest =>
        simp only [Except.map]
        cases scan (afterOperand token.endsOperand tokens) rest.2 more <;> simp

/-- A cut behind a first part that succeeds. -/
theorem scan_append_of_ok {b : Bool} {stack rest : List Pending} {tokens : List Token}
    {out : List Item} (h : scan b stack tokens = .ok (out, rest)) (more : List Token) :
    scan b stack (tokens ++ more)
      = (scan (afterOperand b tokens) rest more).map fun sent => (out ++ sent.1, sent.2) := by
  rw [scan_append, h]
  rfl

/-- **A scan fails at the first token that does.** The tokens before it are scanned, and it fails above
the stack that they leave. -/
theorem scan_eq_error_iff {b : Bool} {stack : List Pending} {tokens : List Token} {e : ParseError} :
    scan b stack tokens = .error e
      ↔ ∃ before token after out rest, tokens = before ++ token :: after
          ∧ scan b stack before = .ok (out, rest)
          ∧ step (afterOperand b before) rest token = .error e := by
  constructor
  · intro h
    induction tokens generalizing b stack with
    | nil => cases h
    | cons token tokens ih =>
      rw [scan] at h
      rcases bind_eq_error h with hstep | ⟨⟨out, middle⟩, hstep, h⟩
      · exact ⟨[], token, tokens, [], stack, rfl, rfl, hstep⟩
      · obtain ⟨before, next, after, more, rest, rfl, hscan, hnext⟩ := ih (map_eq_error_iff.mp h)
        refine ⟨token :: before, next, after, out ++ more, rest, rfl, ?_, ?_⟩
        · exact scan_cons_eq_ok_iff.mpr ⟨out, middle, more, rest, hstep, hscan, rfl⟩
        · rwa [afterOperand_cons]
  · rintro ⟨before, token, after, out, rest, rfl, hscan, hstep⟩
    rw [scan_append_of_ok hscan, scan, hstep]
    rfl

/-- A conversion is a scan and a flush. -/
theorem convert_eq_scan (b : Bool) (stack : List Pending) (tokens : List Token) :
    convert b stack tokens
      = (scan b stack tokens).bind fun sent => (flush sent.2).map (sent.1 ++ ·) := by
  induction tokens generalizing b stack with
  | nil => cases h : flush stack <;> simp [convert, Except.bind, Except.map, h]
  | cons token tokens ih =>
    simp only [convert, scan]
    cases step b stack token with
    | error e => rfl
    | ok sent =>
      simp only [ih, Except.bind]
      cases scan token.endsOperand sent.2 tokens with
      | error e => rfl
      | ok rest =>
        simp only [Except.map]
        cases flush rest.2 <;> simp

/-- The postfix order of a row of tokens, by a scan and a flush. -/
theorem ofTokens_eq_scan (tokens : List Token) :
    ofTokens tokens
      = (scan false [] tokens).bind fun sent => (flush sent.2).map (sent.1 ++ ·) :=
  convert_eq_scan false [] tokens

/-- A row of tokens has a postfix order if its scan succeeds and its stack can be flushed. -/
theorem ofTokens_eq_ok_iff {tokens : List Token} {items : List Item} :
    ofTokens tokens = .ok items
      ↔ ∃ out stack tail, scan false [] tokens = .ok (out, stack) ∧ flush stack = .ok tail
          ∧ out ++ tail = items := by
  rw [ofTokens_eq_scan, bind_eq_ok_iff]
  constructor
  · rintro ⟨⟨out, stack⟩, hscan, h⟩
    obtain ⟨tail, hflush, hitems⟩ := map_eq_ok_iff.mp h
    exact ⟨out, stack, tail, hscan, hflush, hitems⟩
  · rintro ⟨out, stack, tail, hscan, hflush, hitems⟩
    exact ⟨(out, stack), hscan, map_eq_ok_iff.mpr ⟨tail, hflush, hitems⟩⟩

/-- A conversion goes on behind a first part that succeeds. -/
theorem ofTokens_append_of_ok {tokens : List Token} {out : List Item} {stack : List Pending}
    (h : scan false [] tokens = .ok (out, stack)) (more : List Token) :
    ofTokens (tokens ++ more)
      = (convert (afterOperand false tokens) stack more).map (out ++ ·) := by
  rw [ofTokens_eq_scan, scan_append_of_ok h, convert_eq_scan]
  cases scan (afterOperand false tokens) stack more with
  | error e => rfl
  | ok sent => cases hflush : flush sent.2 <;> simp [Except.bind, Except.map, hflush]

/-- What fails in a first part fails with all that stands behind it. -/
theorem ofTokens_append_of_error {tokens : List Token} {e : ParseError}
    (h : scan false [] tokens = .error e) (more : List Token) :
    ofTokens (tokens ++ more) = .error e := by
  rw [ofTokens_eq_scan, scan_append, h]
  rfl

/-! ## Operators on the stack -/

/-- An operator goes before one that holds less strongly, and before an equal one in a row that is
grouped to the left. -/
theorem goesBefore_iff {waiting arriving : Operator} :
    goesBefore waiting arriving = true
      ↔ arriving.precedence < waiting.precedence
        ∨ arriving.precedence = waiting.precedence ∧ arriving.associativity = .left := by
  simp [goesBefore]

/-- In a row that is grouped to the left an operator goes before all that hold no more strongly. -/
theorem goesBefore_of_le_left {waiting arriving : Operator}
    (h : arriving.precedence ≤ waiting.precedence) (hleft : arriving.associativity = .left) :
    goesBefore waiting arriving = true := by
  rw [goesBefore_iff]
  rcases Nat.lt_or_eq_of_le h with hlt | heq
  · exact .inl hlt
  · exact .inr ⟨heq, hleft⟩

/-- Waiting operators that all go before an arriving one leave the stack, in order. -/
theorem release_operators {arriving : Operator} {ops : List Operator}
    (h : ∀ op ∈ ops, goesBefore op arriving = true) (stack : List Pending) :
    release arriving (ops.map .operator ++ stack)
      = (ops.map .operator ++ (release arriving stack).1, (release arriving stack).2) := by
  induction ops with
  | nil => rfl
  | cons op ops ih =>
    have hop : goesBefore op arriving = true := h op List.mem_cons_self
    have hops := ih fun w hw => h w (List.mem_cons_of_mem _ hw)
    simp [release, hop, hops]

/-- The operators above an opening parenthesis leave the stack when it is closed. -/
theorem close_operators (ops : List Operator) (stack : List Pending) :
    close (ops.map .operator ++ stack)
      = (close stack).map fun sent => (ops.map .operator ++ sent.1, sent.2) := by
  induction ops with
  | nil => cases h : close stack <;> simp [Except.map, h]
  | cons op ops ih =>
    simp only [List.map_cons, List.cons_append, close, ih]
    cases close stack <;> rfl

/-- A row of operators leaves the stack at the end. -/
theorem flush_operators (ops : List Operator) :
    flush (ops.map .operator) = .ok (ops.map .operator) := by
  induction ops with
  | nil => rfl
  | cons op ops ih => simp [flush, ih, Except.map]

/-- What a flush sends out holds no numbers. -/
theorem not_mem_of_flush {stack : List Pending} {out : List Item} (h : flush stack = .ok out)
    (v : Float) : .number v ∉ out := by
  -- Operators and functions leave the stack; an opening parenthesis on it is an error.
  induction stack generalizing out with
  | nil => simp_all [flush]
  | cons top stack ih =>
    cases top with
    | openParen => simp [flush] at h
    | operator _ | function _ =>
      rw [flush] at h
      obtain ⟨rest, hstack, rfl⟩ := map_eq_ok_iff.mp h
      simpa using ih hstack

/-! ## Where an operand is due -/

/-- A minus sign where an operand is due is unary. -/
theorem afterOperand_of_awaits {tokens : List Token}
    (h : ∀ t ∈ tokens.getLast?, t.awaitsOperand = true) : afterOperand false tokens = false := by
  rcases List.eq_nil_or_concat' tokens with rfl | ⟨front, t, rfl⟩
  · rfl
  · have ht := h t (by simp)
    rw [afterOperand_concat]
    cases t <;> first | rfl | cases ht

/-- No operator goes before a sign that arrives. -/
theorem goesBefore_negate (op : Operator) : goesBefore op .negate = false := by
  cases op with
  | negate => rfl
  | binary op => cases op <;> rfl

/-- A sign where an operand is due disturbs nothing that waits. -/
theorem release_negate_of_scan {tokens : List Token}
    (hawaits : ∀ t ∈ tokens.getLast?, t.awaitsOperand = true) {out : List Item}
    {stack : List Pending} (h : scan false [] tokens = .ok (out, stack)) :
    release .negate stack = ([], stack) := by
  rcases List.eq_nil_or_concat' tokens with rfl | ⟨front, t, rfl⟩
  · cases h
    rfl
  · have ht := hawaits t (by simp)
    rw [scan_append] at h
    obtain ⟨sent, -, h⟩ := bind_eq_ok_iff.mp h
    obtain ⟨last, hstep, hlast⟩ := map_eq_ok_iff.mp h
    rw [scan_singleton] at hstep
    cases hlast
    cases t with
    | openParen =>
      cases hstep
      rfl
    | operator c =>
      -- What the scan puts on the stack last is an operator, and it stays for a sign.
      obtain ⟨op, -, rfl⟩ := step_operator_eq_ok_iff.mp hstep
      simp [release, goesBefore_negate]
    | number _ | function _ | closeParen => cases ht

/-- An opening parenthesis is closed alone where a sign disturbs nothing: no function waits below. -/
theorem close_openParen_of_release {stack : List Pending}
    (h : release .negate stack = ([], stack)) : close (.openParen :: stack) = .ok ([], stack) := by
  cases stack with
  | nil => rfl
  | cons top stack =>
    cases top with
    | function f => simp [release] at h
    | operator op => rfl
    | openParen => rfl

end Rpn

end Calculator
