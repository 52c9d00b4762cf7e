import Calculator.Decimal.Nearest
import Calculator.Text.Blank
import Calculator.Token

/-!
# From text to tokens

A text is read from left to right. Blanks only separate; every other character starts a lexeme,
which runs on as far as it can.

* `literal` is the decimal that a run of digits and points spells;
* `munch` takes the first lexeme off a text;
* `tokenize` reads a whole text, up to the first lexeme that is no token.
-/

namespace Calculator

open Text (isBlank)

/-- Why a text has no tokens. -/
inductive LexError where
  | invalidCharacter (c : Char)
  | unknownIdentifier (word : String)
  | invalidNumber (run : String)
deriving DecidableEq, Repr

/-- The text of an error. -/
def LexError.message : LexError → String
  | invalidCharacter c => "Invalid character: " ++ c.toString
  | unknownIdentifier word => "Unknown identifier: " ++ word
  | invalidNumber run => "Invalid number: " ++ run

/-- Whether a character continues a number. -/
def isNumeral (c : Char) : Bool :=
  c.isDigit || c == '.'

/-- The decimal that a run of digits and points spells. A second point ends it: what follows in the
run is passed over. -/
def literal (run : List Char) : Decimal :=
  let whole := run.takeWhile Char.isDigit
  let places := ((run.dropWhile Char.isDigit).drop 1).takeWhile Char.isDigit
  ⟨Nat.ofDigitChars 10 (whole ++ places) 0, -places.length⟩

/-- The token of a run of digits and points: the nearest double, unless the number is too large. -/
def numberToken (run : List Char) : Except LexError Token :=
  let value := (literal run).toFloat false
  if Double.isFinite value then .ok (.number value) else .error (.invalidNumber (String.ofList run))

/-- The token of a run of letters: the name of a function. -/
def wordToken (run : List Char) : Except LexError Token :=
  match NamedFunction.ofName? (String.ofList run) with
  | some f => .ok (.function f)
  | none => .error (.unknownIdentifier (String.ofList run))

/-- The token of a character that stands for itself. -/
def symbolToken (c : Char) : Except LexError Token :=
  if (BinaryOperator.ofChar? c).isSome then .ok (.operator c)
  else if c = '(' then .ok .openParen
  else if c = ')' then .ok .closeParen
  else .error (.invalidCharacter c)

/-- The token of the lexeme that starts with `c`, and the text after the lexeme. A point starts a
number only before a digit. -/
def munch (c : Char) (cs : List Char) : Except LexError Token × List Char :=
  if c.isDigit || c == '.' && cs.head?.any Char.isDigit then
    (numberToken (c :: cs.takeWhile isNumeral), cs.dropWhile isNumeral)
  else if c.isAlpha then
    (wordToken (c :: cs.takeWhile Char.isAlpha), cs.dropWhile Char.isAlpha)
  else (symbolToken c, cs)

/-- What is left after a lexeme is no longer than what followed its first character. -/
theorem length_munch_le (c : Char) (cs : List Char) : (munch c cs).2.length ≤ cs.length := by
  unfold munch
  split
  · exact (List.dropWhile_suffix _).length_le
  · split
    · exact (List.dropWhile_suffix _).length_le
    · exact Nat.le_refl _

/-- The tokens of a text, up to its first error. -/
def lex : List Char → Except LexError (List Token)
  | [] => .ok []
  | c :: cs =>
    if isBlank c then lex cs
    else
      let lexeme := munch c cs
      have : (munch c cs).2.length ≤ cs.length := length_munch_le c cs
      lexeme.1.bind fun token => (lex lexeme.2).map (token :: ·)
termination_by cs => cs.length

@[simp] theorem lex_nil : lex [] = .ok [] := by
  rw [lex]

/-- A blank is passed over. -/
theorem lex_blank {c : Char} (cs : List Char) (h : isBlank c = true) : lex (c :: cs) = lex cs := by
  rw [lex, if_pos h]

/-- Any other character starts a lexeme, and reading goes on behind it. -/
theorem lex_lexeme {c : Char} (cs : List Char) (h : isBlank c = false) :
    lex (c :: cs)
      = (munch c cs).1.bind fun token => (lex (munch c cs).2).map (token :: ·) := by
  rw [lex, if_neg (by simp [h])]

/-- The tokens of a text, or the error of its leftmost lexeme that is no token. -/
def tokenize (text : String) : Except LexError (List Token) :=
  lex text.toList

end Calculator
