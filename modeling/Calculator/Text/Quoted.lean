import Calculator.Text.Glyph

/-!
# Quoted text

Messages quote the text they complain about: between double quotes, with what a reader could not see
written as an escape.

* `escape` writes one character;
* `quote` writes a text.
-/

namespace Calculator.Text

/-- One character as it stands between quotes: the quote, the backslash and four controls have short
escapes, another character without a glyph is written by its code point in hexadecimal. -/
def escape (c : Char) : List Char :=
  if c = '\x00' then ['\\', '0']
  else if c = '\t' then ['\\', 't']
  else if c = '\n' then ['\\', 'n']
  else if c = '\r' then ['\\', 'r']
  else if c = '"' || c = '\\' then ['\\', c]
  else if hasGlyph c then [c]
  else ['\\', 'u', '{'] ++ Nat.toDigits 16 c.toNat ++ ['}']

/-- A text between double quotes. -/
def quote (s : String) : String :=
  String.ofList ('"' :: s.toList.flatMap escape ++ ['"'])

end Calculator.Text
