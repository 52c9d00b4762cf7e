import Calculator.Rpn
import Calculator.Token

/-!
# From tokens to postfix order

Numbers pass straight through, and operators, functions and opening parentheses wait on a stack. An
operator leaves the stack when an operator arrives that holds its operands less strongly, a function
when any operator arrives, and both at the closing of the parenthesis they stand in.

* `resolve` tells which operator a symbol stands for;
* `step` is what one token does, `convert` what a row of tokens does;
* `ofTokens` is the whole conversion.
-/

namespace Calculator

/-- Why tokens have no postfix order. -/
inductive ParseError where
  | mismatchedParentheses
  | unknownOperator (symbol : Char)
deriving DecidableEq, Repr

/-- The text of an error. -/
def ParseError.message : ParseError → String
  | mismatchedParentheses => "Mismatched parentheses"
  | unknownOperator c => "Unknown operator: " ++ c.toString

namespace Rpn

/-- What waits on the stack. -/
inductive Pending where
  | operator (op : Operator)
  | function (f : NamedFunction)
  | openParen
deriving DecidableEq

/-- The operator that a symbol stands for. A minus sign is unary unless an operand has just ended.
-/
def resolve (afterOperand : Bool) (symbol : Char) : Option Operator :=
  if symbol = '-' && !afterOperand then some .negate
  else (BinaryOperator.ofChar? symbol).map .binary

/-- Whether a waiting operator goes before an arriving one: it holds its operands more strongly, or
as strongly in a row that is grouped to the left. -/
def goesBefore (waiting arriving : Operator) : Bool :=
  arriving.precedence < waiting.precedence
    || arriving.precedence == waiting.precedence && arriving.associativity == .left

/-- What leaves the stack when an operator arrives, and what stays. -/
def release (arriving : Operator) : List Pending → List Item × List Pending
  | .operator op :: rest =>
    if goesBefore op arriving then
      let (out, stack) := release arriving rest
      (.operator op :: out, stack)
    else ([], .operator op :: rest)
  | .function f :: rest =>
    let (out, stack) := release arriving rest
    (.function f :: out, stack)
  | stack => ([], stack)

/-- What leaves the stack when a parenthesis closes, and what stays: all that has waited since the
opening one, and then the function that the parentheses were the argument of. -/
def close : List Pending → Except ParseError (List Item × List Pending)
  | [] => .error .mismatchedParentheses
  | .openParen :: .function f :: rest => .ok ([.function f], rest)
  | .openParen :: rest => .ok ([], rest)
  | .operator op :: rest => (close rest).map fun (out, stack) => (.operator op :: out, stack)
  | .function f :: rest => (close rest).map fun (out, stack) => (.function f :: out, stack)

/-- What leaves the stack at the end. -/
def flush : List Pending → Except ParseError (List Item)
  | [] => .ok []
  | .openParen :: _ => .error .mismatchedParentheses
  | .operator op :: rest => (flush rest).map (.operator op :: ·)
  | .function f :: rest => (flush rest).map (.function f :: ·)

/-- What one token sends out, and the stack it leaves. -/
def step (afterOperand : Bool) (stack : List Pending) :
    Token → Except ParseError (List Item × List Pending)
  | .number v => .ok ([.number v], stack)
  | .function f => .ok ([], .function f :: stack)
  | .operator c =>
    match resolve afterOperand c with
    | none => .error (.unknownOperator c)
    | some op =>
      let (out, rest) := release op stack
      .ok (out, .operator op :: rest)
  | .openParen => .ok ([], .openParen :: stack)
  | .closeParen => close stack

/-- What a row of tokens sends out, given what waits and whether an operand has just ended. -/
def convert (afterOperand : Bool) (stack : List Pending) :
    List Token → Except ParseError (List Item)
  | [] => flush stack
  | token :: tokens =>
    match step afterOperand stack token with
    | .error e => .error e
    | .ok (out, rest) => (convert token.endsOperand rest tokens).map (out ++ ·)

/-- The postfix order of a row of tokens. -/
def ofTokens (tokens : List Token) : Except ParseError (List Item) :=
  convert false [] tokens

end Rpn

end Calculator
