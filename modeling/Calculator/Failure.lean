import Calculator.Rpn.OfTokens
import Calculator.Token.Lexer

/-!
# Failures

Why an expression has no value: its text has no tokens, its tokens have no postfix order, or the
computation has no result.

* `Failure` keeps the cause, `Failure.message` is its text.
-/

namespace Calculator

/-- Why an expression has no value. -/
inductive Failure where
  | lexical (cause : LexError)
  | structural (cause : ParseError)
  | numerical (cause : EvalError)
deriving DecidableEq, Repr

/-- The text of a failure, the one of its cause. -/
def Failure.message : Failure → String
  | lexical e => e.message
  | structural e => e.message
  | numerical e => e.message

end Calculator
