import Calculator.Expression
import Calculator.Token

/-!
# The grammar of expressions

Which rows of tokens are expressions, and which tree each stands for:

    sum     := product (('+' | '-') product)*
    product := power (('*' | '/') power)*
    power   := signed ('^' power)?
    signed  := '-' signed | atom
    atom    := number | function '(' sum ')' | '(' sum ')'

Sums and products group to the left, powers to the right, and a sign holds its operand more strongly
than a power.

* `Phrase` are the kinds of phrases, one for each line, `Derives` is what the grammar generates.
-/

namespace Calculator.Grammar

/-- The kinds of phrases, from the weakest operators to the strongest. -/
inductive Phrase where
  | sum
  | product
  | power
  | signed
  | atom
deriving DecidableEq, Repr

/-- `Derives phrase tokens e`: the tokens are a phrase of this kind, and they stand for `e`. -/
inductive Derives : Phrase → List Token → Expression → Prop
  | number (v : Float) : Derives .atom [.number v] (.number v)
  | call {ts e} (f : NamedFunction) : Derives .sum ts e →
      Derives .atom (.function f :: .openParen :: ts ++ [.closeParen]) (.call f e)
  | group {ts e} : Derives .sum ts e → Derives .atom (.openParen :: ts ++ [.closeParen]) e
  | unsigned {ts e} : Derives .atom ts e → Derives .signed ts e
  | negate {ts e} : Derives .signed ts e → Derives .signed (.operator '-' :: ts) (.negate e)
  | base {ts e} : Derives .signed ts e → Derives .power ts e
  | power {ts us d e} : Derives .signed ts d → Derives .power us e →
      Derives .power (ts ++ .operator '^' :: us) (.binary .pow d e)
  | factor {ts e} : Derives .power ts e → Derives .product ts e
  | product {ts us d e} (op : BinaryOperator) : op = .mul ∨ op = .div →
      Derives .product ts d → Derives .power us e →
      Derives .product (ts ++ .operator op.symbol :: us) (.binary op d e)
  | term {ts e} : Derives .product ts e → Derives .sum ts e
  | sum {ts us d e} (op : BinaryOperator) : op = .add ∨ op = .sub →
      Derives .sum ts d → Derives .product us e →
      Derives .sum (ts ++ .operator op.symbol :: us) (.binary op d e)

end Calculator.Grammar
