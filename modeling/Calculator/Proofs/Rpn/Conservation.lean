import Calculator.Proofs.Rpn.Scan
import Mathlib.Data.List.Perm.Basic

/-!
# Nothing is lost

The elements of a postfix order are those of its tokens, each exactly once: what an operator releases, a
parenthesis closes or the end flushes is the top of the stack, as it stood there. Numbers never wait, so
they keep their order.

* `Token.itemBehind` is the element that a token becomes, told by the token before it alone, and `behind`
  pairs the tokens of a row with those before them;
* `waiting` are the elements on a stack, and `release_waiting`, `close_waiting` and `flush_waiting` say
  what leaves it;
* `scan_perm` is the invariant of a scan, `ofTokens_perm` the conclusion about a conversion.
-/

namespace Calculator

/-! ## Tokens, each on its own -/

/-- The operator of a token, by the token before it: a minus sign is a subtraction behind a number or a
closing parenthesis, and a sign everywhere else. -/
def Token.operatorBehind (previous : Option Token) : Token → Option Operator
  | .operator '-' =>
    match previous with
    | some (.number _) | some .closeParen => some (.binary .sub)
    | _ => some .negate
  | .operator c => (BinaryOperator.ofChar? c).map .binary
  | _ => none

/-- The number that a token is. -/
def Token.number? : Token → Option Float
  | .number v => some v
  | _ => none

/-- The function that a token names. -/
def Token.function? : Token → Option NamedFunction
  | .function f => some f
  | _ => none

/-- The element that a token becomes, by the token before it. Parentheses become none. -/
def Token.itemBehind (previous : Option Token) : Token → Option Rpn.Item
  | .number v => some (.number v)
  | .function f => some (.function f)
  | .operator c => ((Token.operator c).operatorBehind previous).map .operator
  | .openParen | .closeParen => none

/-- The tokens of a row, each with the one before it. -/
def behind (previous : Option Token) (ts : List Token) : List (Option Token × Token) :=
  (previous :: ts.map some).zip ts

@[simp] theorem behind_nil (previous : Option Token) : behind previous [] = [] := rfl

@[simp] theorem behind_cons (previous : Option Token) (t : Token) (ts : List Token) :
    behind previous (t :: ts) = (previous, t) :: behind (some t) ts := rfl

theorem behind_snd (previous : Option Token) (ts : List Token) :
    (behind previous ts).map Prod.snd = ts := by
  induction ts generalizing previous with
  | nil => rfl
  | cons t ts ih => rw [behind_cons, List.map_cons, ih]

/-- The token before an operator tells all that the scan knows of the tokens before it. -/
theorem resolve_eq_operatorBehind (previous : Option Token) (c : Char) :
    Rpn.resolve (previous.any Token.endsOperand) c = (Token.operator c).operatorBehind previous := by
  by_cases hminus : c = '-'
  · subst hminus
    rcases previous with _ | (_ | _ | _ | _ | _) <;> rfl
  · simp [Rpn.resolve, Token.operatorBehind, hminus]

namespace Rpn

open scoped List

/-! ## Elements -/

/-- The number that an element is. -/
def Item.number? : Item → Option Float
  | .number v => some v
  | _ => none

/-- The operator that an element is. -/
def Item.operator? : Item → Option Operator
  | .operator op => some op
  | _ => none

/-- The function that an element is. -/
def Item.function? : Item → Option NamedFunction
  | .function f => some f
  | _ => none

theorem itemBehind_number? (previous : Option Token) (t : Token) :
    (t.itemBehind previous).bind Item.number? = t.number? := by
  cases t with
  | operator c => simp [Token.itemBehind, Token.number?, Item.number?, Option.bind_map]
  | _ => rfl

theorem itemBehind_operator? (previous : Option Token) (t : Token) :
    (t.itemBehind previous).bind Item.operator? = t.operatorBehind previous := by
  cases t with
  | operator c => simp [Token.itemBehind, Item.operator?, Option.bind_map, Function.comp_def]
  | _ => rfl

theorem itemBehind_function? (previous : Option Token) (t : Token) :
    (t.itemBehind previous).bind Item.function? = t.function? := by
  cases t with
  | operator c => simp [Token.itemBehind, Token.function?, Item.function?, Option.bind_map]
  | _ => rfl

/-! ## What leaves the stack -/

/-- The element that waits on the stack; a parenthesis is none. -/
def Pending.item? : Pending → Option Item
  | .operator op => some (.operator op)
  | .function f => some (.function f)
  | .openParen => none

/-- The elements that wait on a stack, from its top. -/
def waiting (stack : List Pending) : List Item :=
  stack.filterMap Pending.item?

/-- An operator that arrives brings out the top of the stack. -/
theorem release_waiting (op : Operator) (stack : List Pending) :
    (release op stack).1 ++ waiting (release op stack).2 = waiting stack := by
  induction stack with
  | nil => rfl
  | cons top stack ih =>
    cases top with
    | openParen => rfl
    | function f => simpa [release, waiting, Pending.item?] using ih
    | operator op' =>
      by_cases h : goesBefore op' op = true
      · simpa [release, h, waiting, Pending.item?] using ih
      · simp [release, h, waiting, Pending.item?]

/-- A parenthesis that is closed brings out the top of the stack. -/
theorem close_waiting {stack rest : List Pending} {out : List Item}
    (h : close stack = .ok (out, rest)) : out ++ waiting rest = waiting stack := by
  induction stack generalizing out with
  | nil => cases h
  | cons top stack ih =>
    cases top with
    | openParen =>
      rcases stack with _ | ⟨_ | f | _, stack⟩ <;>
      · cases h
        rfl
    | operator _ | function _ =>
      rw [close] at h
      obtain ⟨sent, hstack, hsent⟩ := map_eq_ok_iff.mp h
      cases hsent
      simpa [waiting, Pending.item?] using ih hstack

/-- The end brings out the whole stack. -/
theorem flush_waiting {stack : List Pending} {out : List Item} (h : flush stack = .ok out) :
    out = waiting stack := by
  induction stack generalizing out with
  | nil =>
    cases h
    rfl
  | cons top stack ih =>
    cases top with
    | openParen => cases h
    | operator _ | function _ =>
      rw [flush] at h
      obtain ⟨rest, hstack, rfl⟩ := map_eq_ok_iff.mp h
      simp [waiting, Pending.item?, ih hstack]

/-- No number waits. -/
theorem waiting_number? (stack : List Pending) : (waiting stack).filterMap Item.number? = [] := by
  rw [waiting, List.filterMap_filterMap, List.filterMap_eq_nil_iff]
  rintro (_ | _ | _) - <;> rfl

/-! ## One token -/

variable (previous : Option Token) {stack rest : List Pending} {out : List Item}

/-- A token that is scanned becomes its element, and brings out what has waited: what is out and what
waits are what has waited, with the element of the token. -/
theorem step_perm {t : Token}
    (h : step (previous.any Token.endsOperand) stack t = .ok (out, rest)) :
    out ++ waiting rest ~ (t.itemBehind previous).toList ++ waiting stack := by
  cases t with
  | number _ | function _ | openParen =>
    cases h
    rfl
  | closeParen =>
    have hclose : out ++ waiting rest = waiting stack := close_waiting h
    rw [hclose]
    rfl
  | operator c =>
    obtain ⟨op, hop, hsent⟩ := step_operator_eq_ok_iff.mp h
    cases hsent
    rw [resolve_eq_operatorBehind] at hop
    rw [Token.itemBehind, hop, ← release_waiting op stack]
    exact List.perm_middle

/-- A token that is scanned becomes one element, or it is a parenthesis. -/
theorem count_of_step {t : Token}
    (h : step (previous.any Token.endsOperand) stack t = .ok (out, rest)) :
    (t.itemBehind previous).toList.length + [t].count .openParen + [t].count .closeParen = 1 := by
  cases t with
  | number _ | function _ | openParen | closeParen => simp [Token.itemBehind]
  | operator c =>
    obtain ⟨op, hop, -⟩ := step_operator_eq_ok_iff.mp h
    rw [resolve_eq_operatorBehind] at hop
    simp [Token.itemBehind, hop]

/-- A number comes out at once, and no other token brings one out. -/
theorem number?_of_step {t : Token}
    (h : step (previous.any Token.endsOperand) stack t = .ok (out, rest)) :
    out.filterMap Item.number? = t.number?.toList := by
  have hitem : (t.itemBehind previous).toList.filterMap Item.number? = t.number?.toList := by
    rw [← itemBehind_number? previous t]
    cases t.itemBehind previous with
    | none => rfl
    | some item => cases item <;> rfl
  have hperm := (step_perm previous h).filterMap Item.number?
  rw [List.filterMap_append, List.filterMap_append, waiting_number?, waiting_number?,
    List.append_nil, List.append_nil, hitem] at hperm
  -- There is at most one number, so that the order does not matter.
  cases hnumber : t.number? with
  | none => simpa [hnumber] using hperm
  | some v => simpa [hnumber] using hperm

/-! ## A row of tokens -/

/-- The elements of a row of tokens, by the token before it. -/
def itemsBehind (previous : Option Token) (ts : List Token) : List Item :=
  (behind previous ts).filterMap fun (p, t) => t.itemBehind p

theorem itemsBehind_cons (previous : Option Token) (t : Token) (ts : List Token) :
    itemsBehind previous (t :: ts) = (t.itemBehind previous).toList ++ itemsBehind (some t) ts := by
  simp only [itemsBehind, behind_cons, List.filterMap_eq_flatMap_toList, List.flatMap_cons]

/-- The functions among them are those of the row. -/
theorem itemsBehind_function? (previous : Option Token) (ts : List Token) :
    (itemsBehind previous ts).filterMap Item.function? = ts.filterMap Token.function? := by
  simp only [itemsBehind, List.filterMap_filterMap, itemBehind_function?]
  calc (behind previous ts).filterMap (fun x => x.2.function?)
      = ((behind previous ts).map Prod.snd).filterMap Token.function? := by rw [List.filterMap_map]; rfl
    _ = ts.filterMap Token.function? := by rw [behind_snd]

/-- **What a scan keeps.** What is out and what waits are what has waited, with the elements of the
tokens. -/
theorem scan_perm {ts : List Token}
    (h : scan (previous.any Token.endsOperand) stack ts = .ok (out, rest)) :
    out ++ waiting rest ~ itemsBehind previous ts ++ waiting stack := by
  induction ts generalizing previous stack out with
  | nil =>
    cases h
    rfl
  | cons t ts ih =>
    obtain ⟨sent, middle, more, last, hstep, hscan, hsent⟩ := scan_cons_eq_ok_iff.mp h
    cases hsent
    have hothers := ih (some t) hscan
    rw [itemsBehind_cons]
    -- The elements of the other tokens make way for what the first one has sent out.
    calc sent ++ more ++ waiting rest
        = sent ++ (more ++ waiting rest) := List.append_assoc ..
      _ ~ sent ++ (itemsBehind (some t) ts ++ waiting middle) := hothers.append_left sent
      _ ~ itemsBehind (some t) ts ++ (sent ++ waiting middle) := List.perm_append_comm_assoc ..
      _ ~ itemsBehind (some t) ts ++ ((t.itemBehind previous).toList ++ waiting stack) :=
        (step_perm previous hstep).append_left _
      _ ~ (t.itemBehind previous).toList ++ (itemsBehind (some t) ts ++ waiting stack) :=
        List.perm_append_comm_assoc ..
      _ = (t.itemBehind previous).toList ++ itemsBehind (some t) ts ++ waiting stack :=
        (List.append_assoc ..).symm

/-- The numbers of a row come out in their order. -/
theorem number?_of_scan {ts : List Token}
    (h : scan (previous.any Token.endsOperand) stack ts = .ok (out, rest)) :
    out.filterMap Item.number? = ts.filterMap Token.number? := by
  induction ts generalizing previous stack out with
  | nil =>
    cases h
    rfl
  | cons t ts ih =>
    obtain ⟨sent, middle, more, last, hstep, hscan, hsent⟩ := scan_cons_eq_ok_iff.mp h
    cases hsent
    rw [List.filterMap_append, number?_of_step previous hstep, ih (some t) hscan]
    simp only [List.filterMap_eq_flatMap_toList, List.flatMap_cons]

/-- Each token of a row becomes one element, or it is a parenthesis. -/
theorem count_of_scan {ts : List Token}
    (h : scan (previous.any Token.endsOperand) stack ts = .ok (out, rest)) :
    (itemsBehind previous ts).length + ts.count .openParen + ts.count .closeParen = ts.length := by
  induction ts generalizing previous stack out with
  | nil => rfl
  | cons t ts ih =>
    obtain ⟨sent, middle, more, last, hstep, hscan, hsent⟩ := scan_cons_eq_ok_iff.mp h
    cases hsent
    have hfirst := count_of_step previous hstep
    have hothers := ih (some t) hscan
    rw [itemsBehind_cons, List.length_append, List.length_cons, ← List.singleton_append,
      List.count_append, List.count_append]
    omega

/-! ## The conversion -/

/-- The postfix order of a row of tokens holds the elements of the tokens. -/
theorem items_perm {ts : List Token} {items : List Item} (h : ofTokens ts = .ok items) :
    items ~ itemsBehind none ts := by
  obtain ⟨out, stack, tail, hscan, hflush, rfl⟩ := ofTokens_eq_ok_iff.mp h
  rw [flush_waiting hflush]
  simpa [waiting] using scan_perm none hscan

/-- **Nothing is lost and nothing is made.** In the postfix order of a row of tokens, be it an expression
or not, the numbers are those of the row in their order; the functions are those of the row, and so are
the operators, each told by its own token and the one before it; and only the parentheses are gone. -/
theorem ofTokens_perm {ts : List Token} {items : List Item} (h : ofTokens ts = .ok items) :
    items.filterMap Item.number? = ts.filterMap Token.number?
      ∧ items.filterMap Item.function? ~ ts.filterMap Token.function?
      ∧ items.filterMap Item.operator?
        ~ (behind none ts).filterMap (fun (previous, t) => t.operatorBehind previous)
      ∧ items.length + ts.count .openParen + ts.count .closeParen = ts.length := by
  have hperm := items_perm h
  obtain ⟨out, stack, tail, hscan, hflush, rfl⟩ := ofTokens_eq_ok_iff.mp h
  refine ⟨?_, ?_, ?_, ?_⟩
  · rw [List.filterMap_append, flush_waiting hflush, waiting_number?, List.append_nil]
    exact number?_of_scan none hscan
  · have hfunctions := hperm.filterMap Item.function?
    rwa [itemsBehind_function?] at hfunctions
  · have hoperators := hperm.filterMap Item.operator?
    simpa only [itemsBehind, List.filterMap_filterMap, itemBehind_operator?] using hoperators
  · rw [hperm.length_eq]
    exact count_of_scan none hscan

/-- The row need not be an expression: in `sin - ( 2 ) - 3` the function has no argument and comes out
first, and the two minus signs become two operators. -/
theorem ofTokens_function_alone :
    let ts : List Token := [.function .sin, .operator '-', .openParen, .number 2.0, .closeParen,
      .operator '-', .number 3.0]
    let items : List Item := [.function .sin, .number 2.0, .operator .negate, .number 3.0,
      .operator (.binary .sub)]
    ofTokens ts = .ok items
      ∧ items.filterMap Item.number? = ts.filterMap Token.number?
      ∧ items.filterMap Item.function? ~ ts.filterMap Token.function?
      ∧ items.filterMap Item.operator?
        ~ (behind none ts).filterMap (fun (previous, t) => t.operatorBehind previous)
      ∧ items.length + ts.count .openParen + ts.count .closeParen = ts.length := by
  intro ts items
  have hitems : ofTokens ts = .ok items := by decide +kernel
  exact ⟨hitems, ofTokens_perm hitems⟩

end Rpn

end Calculator
