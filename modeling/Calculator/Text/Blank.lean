import Calculator.Text.Ranges

/-!
# Blanks

The characters that separate lexemes and that surround a setting's value: the white space of the
Unicode standard.

* `blankRanges` lists them, `isBlank` is the test;
* `trim` drops the blanks at both ends of a text.
-/

namespace Calculator.Text

/-- The code points of the blanks, as increasing closed intervals. -/
def blankRanges : List (Nat × Nat) :=
  [(0x9, 0xd), (0x20, 0x20), (0x85, 0x85), (0xa0, 0xa0), (0x1680, 0x1680), (0x2000, 0x200a),
   (0x2028, 0x2029), (0x202f, 0x202f), (0x205f, 0x205f), (0x3000, 0x3000)]

/-- Whether a character is white space. The zero-width space and the byte-order mark are not, and
neither are the four information separators among the controls. -/
def isBlank (c : Char) : Bool :=
  inRanges blankRanges c

/-- A text without the blanks at its two ends. -/
def trim (cs : List Char) : List Char :=
  ((cs.dropWhile isBlank).reverse.dropWhile isBlank).reverse

/-- Every character that core calls white space is a blank. -/
theorem isBlank_of_isWhitespace {c : Char} (h : c.isWhitespace = true) : isBlank c = true := by
  simp only [Char.isWhitespace, Bool.or_eq_true, decide_eq_true_eq] at h
  rcases h with ((rfl | rfl) | rfl) | rfl <;> decide

end Calculator.Text
