import Calculator.Decimal.Shortest

/-!
# Layouts of numbers

A decimal is written positionally, `0.00012`, or scientifically, `1.2e-4`. A layout says which of
the two serves at each size.

* `positional` and `scientific` are the two ways to write;
* `Layout` is the choice between them, `Layout.write` a decimal laid out;
* `Layout.writeFloat` is a double laid out, by its shortest decimal.
-/

namespace Calculator

/-- An integer with a minus sign if it is negative. -/
def integerText : Int → List Char
  | .ofNat n => Nat.toDigits 10 n
  | .negSucc n => '-' :: Nat.toDigits 10 (n + 1)

/-- The number `digits · 10 ^ exponent` without an exponent: zeros fill the places up to the point,
and `wholeMark` closes a whole number. -/
def positional (wholeMark digits : List Char) : Int → List Char
  | .ofNat n => digits ++ List.replicate n '0' ++ wholeMark
  | .negSucc n =>
    let places := n + 1
    let padded := List.replicate (places + 1 - digits.length) '0' ++ digits
    let whole := padded.length - places
    padded.take whole ++ '.' :: padded.drop whole

/-- Digits with a point after the first and the power of ten that the first counts. -/
def scientific (digits : List Char) (leadingExponent : Int) : List Char :=
  match digits with
  | [] => []
  | [d] => d :: 'e' :: integerText leadingExponent
  | d :: rest => d :: '.' :: rest ++ 'e' :: integerText leadingExponent

/-- How numbers of each size are written. -/
structure Layout where
  /-- Whether a number is written positionally, by the power of ten of its first digit. -/
  isPositional : Int → Bool
  /-- What closes a whole number that is written positionally. -/
  wholeMark : List Char

namespace Layout

/-- A positive decimal laid out. -/
def write (l : Layout) (d : Decimal) : List Char :=
  if l.isPositional d.leadingExponent then positional l.wholeMark d.digits d.exponent
  else scientific d.digits d.leadingExponent

/-- The magnitude of rank `k` laid out. -/
def writeRank (l : Layout) (k : Nat) : List Char :=
  if k = 0 then '0' :: l.wholeMark
  else if k < Double.infinityRank then l.write (shortest k)
  else "inf".toList

/-- A double laid out by its shortest decimal. Zero has a sign; a value that is not a number has
none. -/
def writeFloat (l : Layout) (x : Float) : List Char :=
  let k := Double.rank x
  if Double.infinityRank < k then "NaN".toList
  else if Double.isNegative x then '-' :: l.writeRank k
  else l.writeRank k

/-- Every number in full, as it would be typed. -/
def plain : Layout where
  isPositional _ := true
  wholeMark := []

/-- The entries of a list of values: a whole number keeps a decimal, and below `10⁻⁴` or from `10¹⁶`
on the exponent is written. -/
def listed : Layout where
  isPositional e := -4 ≤ e && e < 16
  wholeMark := ['.', '0']

end Layout

end Calculator
