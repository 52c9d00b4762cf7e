import Calculator.Proofs.Rpn.Machine
import Calculator.Proofs.Rpn.Scan

/-!
# Parentheses

What stands in parentheses is brought into postfix order as if it stood alone, and counts as one
operand outside. Neither the tokens inside nor those outside need be an expression.

An opening parenthesis on the stack hides what is below it: nothing that waits there leaves before the
parenthesis is closed, and then all that has waited above it does.

* `scan_above` is the scan above a parenthesis, `close_of_flush` the closing of it;
* `scan_parens` says that a parenthesised row of tokens does to the stack what a number does: nothing;
* `ofTokens_enclosed` puts such a row in place of a number.
-/

namespace Calculator.Rpn

/-! ## Above a parenthesis -/

/-- What leaves the stack when an operator arrives stands above the last parenthesis. -/
theorem release_above (op : Operator) (stack below : List Pending) :
    release op (stack ++ .openParen :: below)
      = ((release op stack).1, (release op stack).2 ++ .openParen :: below) := by
  induction stack with
  | nil => rfl
  | cons top stack ih =>
    cases top with
    | openParen => rfl
    | operator waiting =>
      by_cases h : goesBefore waiting op = true <;> simp [release, h, ih]
    | function f => simp [release, ih]

/-- The closing of a parenthesis does not reach the one before it. -/
theorem close_above {stack rest : List Pending} {out : List Item} (h : close stack = .ok (out, rest))
    (below : List Pending) :
    close (stack ++ .openParen :: below) = .ok (out, rest ++ .openParen :: below) := by
  -- What waits above the parenthesis leaves first, and the parenthesis is closed alone or with its
  -- function, as `close` does it.
  induction stack generalizing out with
  | nil => cases h
  | cons top stack ih =>
    cases top with
    | openParen =>
      rcases stack with _ | ⟨_ | f | _, stack⟩ <;>
      · cases h
        rfl
    | operator _ | function _ =>
      rw [close] at h
      obtain ⟨sent, hstack, hsent⟩ := map_eq_ok_iff.mp h
      cases hsent
      simp only [List.cons_append, close, ih hstack]
      rfl

/-- A token does above a parenthesis what it does on a stack of its own. -/
theorem step_above {b : Bool} {stack rest : List Pending} {t : Token} {out : List Item}
    (h : step b stack t = .ok (out, rest)) (below : List Pending) :
    step b (stack ++ .openParen :: below) t = .ok (out, rest ++ .openParen :: below) := by
  cases t with
  | number _ | function _ | openParen =>
    cases h
    rfl
  | closeParen => exact close_above h below
  | operator c =>
    obtain ⟨op, hop, hsent⟩ := step_operator_eq_ok_iff.mp h
    cases hsent
    refine step_operator_eq_ok_iff.mpr ⟨op, hop, ?_⟩
    rw [release_above]
    rfl

/-- **A scan above a parenthesis** is the scan on a stack of its own. -/
theorem scan_above {b : Bool} {stack rest : List Pending} {tokens : List Token} {out : List Item}
    (h : scan b stack tokens = .ok (out, rest)) (below : List Pending) :
    scan b (stack ++ .openParen :: below) tokens = .ok (out, rest ++ .openParen :: below) := by
  induction tokens generalizing b stack out with
  | nil =>
    cases h
    rfl
  | cons t tokens ih =>
    obtain ⟨sent, middle, more, last, hstep, hscan, hsent⟩ := scan_cons_eq_ok_iff.mp h
    cases hsent
    exact scan_cons_eq_ok_iff.mpr
      ⟨sent, middle ++ .openParen :: below, more, _, step_above hstep below, ih hscan, rfl⟩

/-- What a flush would bring out leaves when the parenthesis below it is closed. -/
theorem close_of_flush {stack : List Pending} {items : List Item} (h : flush stack = .ok items)
    (below : List Pending) :
    close (stack ++ .openParen :: below)
      = (close (.openParen :: below)).map fun sent => (items ++ sent.1, sent.2) := by
  induction stack generalizing items with
  | nil =>
    cases h
    cases hbelow : close (.openParen :: below) <;> simp [Except.map, hbelow]
  | cons top stack ih =>
    cases top with
    | openParen => cases h
    | operator _ | function _ =>
      rw [flush] at h
      obtain ⟨rest, hstack, rfl⟩ := map_eq_ok_iff.mp h
      simp only [List.cons_append, close, ih hstack]
      cases close (.openParen :: below) <;> rfl

/-! ## A parenthesised row -/

/-- **A parenthesised row of tokens** sends out its postfix order and leaves the stack as it was, unless
a function waits for it. -/
theorem scan_parens {tokens : List Token} {items : List Item} (h : ofTokens tokens = .ok items)
    {b : Bool} {below : List Pending} (hbelow : close (.openParen :: below) = .ok ([], below)) :
    scan b below (.openParen :: tokens ++ [.closeParen]) = .ok (items, below) := by
  obtain ⟨out, stack, tail, hscan, hflush, rfl⟩ := ofTokens_eq_ok_iff.mp h
  have habove : scan false (.openParen :: below) tokens = .ok (out, stack ++ .openParen :: below) :=
    scan_above hscan below
  have hclose : close (stack ++ .openParen :: below) = .ok (tail, below) := by
    rw [close_of_flush hflush, hbelow]
    simp [Except.map]
  have hinner : scan false (.openParen :: below) (tokens ++ [.closeParen])
      = .ok (out ++ tail, below) := by
    rw [scan_append_of_ok habove, scan_singleton, step, hclose]
    rfl
  rw [List.cons_append, scan]
  simp only [step, Except.bind, Token.endsOperand, hinner]
  simp [Except.map]

/-- Behind a row of tokens where an operand is due, a parenthesised row that has a postfix order can
stand in place of any number: its postfix order stands where the number would, and nothing else
changes. -/
theorem ofTokens_enclosed {before : List Token}
    (hbefore : ∀ t ∈ before.getLast?, t.awaitsOperand = true) {tokens : List Token}
    {items : List Item} (h : ofTokens tokens = .ok items) (after : List Token) :
    (∃ e, ofTokens (before ++ .openParen :: tokens ++ .closeParen :: after) = .error e
        ∧ ∀ x, ofTokens (before ++ .number x :: after) = .error e)
      ∨ ∃ out tail,
        ofTokens (before ++ .openParen :: tokens ++ .closeParen :: after) = .ok (out ++ items ++ tail)
          ∧ ∀ x, ofTokens (before ++ .number x :: after) = .ok (out ++ .number x :: tail) := by
  have henclosed : before ++ .openParen :: tokens ++ .closeParen :: after
      = before ++ (.openParen :: tokens ++ [.closeParen]) ++ after := by simp
  have hplain (x : Float) : before ++ .number x :: after = before ++ [.number x] ++ after := by simp
  rw [henclosed]
  cases hscan : scan false [] before with
  | error e =>
    refine .inl ⟨e, ?_, fun x => ofTokens_append_of_error hscan _⟩
    rw [List.append_assoc]
    exact ofTokens_append_of_error hscan _
  | ok sent =>
    obtain ⟨out, stack⟩ := sent
    -- Both operands leave the stack that the tokens before them have left, and an operand has ended
    -- behind both; so the tokens after them are converted alike.
    have hbelow := close_openParen_of_release (release_negate_of_scan hbefore hscan)
    have hparens : scan false [] (before ++ (.openParen :: tokens ++ [.closeParen]))
        = .ok (out ++ items, stack) := by
      rw [scan_append_of_ok hscan, scan_parens h hbelow]
      rfl
    have hnumber (x : Float) :
        scan false [] (before ++ [.number x]) = .ok (out ++ [.number x], stack) := by
      rw [scan_append_of_ok hscan, scan_singleton]
      rfl
    have hconverted : ofTokens (before ++ (.openParen :: tokens ++ [.closeParen]) ++ after)
        = (convert true stack after).map (out ++ items ++ ·) := by
      rw [ofTokens_append_of_ok hparens, ← List.append_assoc, afterOperand_concat]
      rfl
    have hconverted' (x : Float) : ofTokens (before ++ [.number x] ++ after)
        = (convert true stack after).map (out ++ [.number x] ++ ·) := by
      rw [ofTokens_append_of_ok (hnumber x), afterOperand_concat]
      rfl
    simp only [hplain, hconverted, hconverted']
    cases convert true stack after with
    | error e => exact .inl ⟨e, rfl, fun x => rfl⟩
    | ok tail => exact .inr ⟨out, tail, rfl, fun x => by simp [Except.map]⟩

/-- **What stands in parentheses is one operand.** Behind a row of tokens where an operand is due, a
parenthesised row that has a postfix order can stand in place of any number. Either both rows have no
postfix order, for one reason that does not depend on the operand; or the postfix order of the inner
row stands where the number would, and nothing else changes. So the whole comes to what it comes to
with the value of the inner row in its place. -/
theorem ofTokens_parens {before : List Token}
    (hbefore : ∀ t ∈ before.getLast?, t.awaitsOperand = true) {tokens : List Token}
    {items : List Item} (h : ofTokens tokens = .ok items) (after : List Token) :
    let enclosed := before ++ .openParen :: tokens ++ .closeParen :: after
    ((∃ e, ofTokens enclosed = .error e
          ∧ ∀ x, ofTokens (before ++ .number x :: after) = .error e)
        ∨ ∃ out tail, ofTokens enclosed = .ok (out ++ items ++ tail)
          ∧ ∀ x, ofTokens (before ++ .number x :: after) = .ok (out ++ .number x :: tail))
      ∧ ∀ lib mode v, evaluate lib mode items = .ok v →
          (ofTokens enclosed).map (evaluate lib mode)
            = (ofTokens (before ++ .number v :: after)).map (evaluate lib mode) := by
  intro enclosed
  have henclosed := ofTokens_enclosed hbefore h after
  refine ⟨henclosed, fun lib mode v hv => ?_⟩
  rcases henclosed with ⟨e, hparens, hnumber⟩ | ⟨out, tail, hparens, hnumber⟩
  · rw [hparens, hnumber]
  · rw [hparens, hnumber]
    exact congrArg Except.ok (evaluate_replace hv out tail)

/-- Neither side of the parentheses need be an expression: in `1 + ( 2 3 * ) 4 -` the inner row comes to
six, and the outer one takes it off as it would take off any number. -/
theorem ofTokens_parens_postfix :
    let before : List Token := [.number 1.0, .operator '+']
    let tokens : List Token := [.number 2.0, .number 3.0, .operator '*']
    let items : List Item := [.number 2.0, .number 3.0, .operator (.binary .mul)]
    let after : List Token := [.number 4.0, .operator '-']
    let enclosed := before ++ .openParen :: tokens ++ .closeParen :: after
    (∀ t ∈ before.getLast?, t.awaitsOperand = true) ∧ ofTokens tokens = .ok items
      ∧ evaluate .native .degrees items = .ok 6.0
      ∧ ((∃ e, ofTokens enclosed = .error e
            ∧ ∀ x, ofTokens (before ++ .number x :: after) = .error e)
          ∨ ∃ out tail, ofTokens enclosed = .ok (out ++ items ++ tail)
            ∧ ∀ x, ofTokens (before ++ .number x :: after) = .ok (out ++ .number x :: tail))
      ∧ ∀ lib mode v, evaluate lib mode items = .ok v →
          (ofTokens enclosed).map (evaluate lib mode)
            = (ofTokens (before ++ .number v :: after)).map (evaluate lib mode) := by
  intro before tokens items after enclosed
  have hbefore : ∀ t ∈ before.getLast?, t.awaitsOperand = true := by
    rintro t ⟨⟩
    rfl
  have hitems : ofTokens tokens = .ok items := by decide +kernel
  exact ⟨hbefore, hitems, by decide +kernel, ofTokens_parens hbefore hitems after⟩

end Calculator.Rpn
