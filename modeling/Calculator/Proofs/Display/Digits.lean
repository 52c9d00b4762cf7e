import Calculator.Proofs.Decimal.Canonical
import Calculator.Proofs.Display.Rereading
import Calculator.Proofs.Outcome

/-!
# Rounding digit by digit

The rounding of the display on a machine: the shortest decimal is written with an exponent, its digits
are taken from the text and cut behind the twelfth place, what is kept is counted up in an integer of
limited size, and the count is written with its power of ten and read. Here every step is checked: a text
that is not read is a fault, and so are a place outside a row and an integer that is too large.

* `Fault` is what could go wrong; `int32`, `upTo`, `before` and `behind` are checked steps;
* `ofText` takes the digits from the text, `cut` counts up those that are kept, `rebuild` reads the
  count, and `round` is the whole;
* `ofText_writeRank` is about the text, `cut_digits` says that the cut is the rounding of the decimal;
* `round_eq_ok` says that nothing fails and that the result is the rounded double.
-/

namespace Calculator.Digits

open Double (Rounds)

/-! ## The checked steps -/

/-- What could go wrong where digits are rounded. -/
inductive Fault where
  /-- A text is not read. -/
  | unreadable
  /-- A row of digits does not have a place. -/
  | outOfRange
  /-- A type of integers does not have a number. -/
  | overflow
deriving DecidableEq, Repr

/-- A value that has to be there. -/
def require {α : Type} (fault : Fault) : Option α → Except Fault α
  | some a => .ok a
  | none => .error fault

/-- An integer with a place among those of 32 bits. -/
def int32 (i : Int) : Except Fault Int :=
  if -2147483648 ≤ i ∧ i < 2147483648 then .ok i else .error .overflow

/-- A natural number up to a limit. -/
def upTo (limit n : Nat) : Except Fault Nat :=
  if n ≤ limit then .ok n else .error .overflow

/-- The digits before a place, which the row has or ends at. -/
def before (place : Nat) (digits : List Nat) : Except Fault (List Nat) :=
  if place ≤ digits.length then .ok (digits.take place) else .error .outOfRange

/-- The digits from a place on, which the row has or ends at. -/
def behind (place : Nat) (digits : List Nat) : Except Fault (List Nat) :=
  if place ≤ digits.length then .ok (digits.drop place) else .error .outOfRange

/-! ## The rounding -/

/-- Every number with an exponent. -/
def exponential : Layout where
  isPositional _ := false
  wholeMark := []

/-- The two parts of a text, before and behind a mark. -/
def splitOnce? (mark : Char) (cs : List Char) : Option (List Char × List Char) :=
  match cs.dropWhile (· != mark) with
  | _ :: rest => some (cs.takeWhile (· != mark), rest)
  | [] => none

/-- The number that a digit stands for. -/
def value (c : Char) : Nat :=
  c.toNat - '0'.toNat

/-- The digits of a text with an exponent, and the exponent. -/
def ofText (cs : List Char) : Except Fault (List Nat × Int) := do
  let (mantissa, power) ← require .unreadable (splitOnce? 'e' cs)
  let exponent ← require .unreadable (readInteger? power)
  let exponent ← int32 exponent
  return ((mantissa.filter Char.isDigit).map value, exponent)

/-- The number that digits spell, counted up one digit after the other. -/
def count (limit : Nat) (digits : List Nat) : Except Fault Nat :=
  digits.foldlM (fun n digit => upTo limit (n * 10 + digit)) 0

/-- Whether a count goes up for the digits that are left out: the first of them decides, and where it is in
the middle the others do. A tie goes up if `up` is set. -/
def goesUp (up : Bool) (first : Nat) (rest : List Nat) : Bool :=
  match first with
  | 6 | 7 | 8 | 9 => true
  | 5 => rest.any (· != 0) || up
  | _ => false

/-- The count of the first digits, rounded by the others. -/
def cut (limit : Nat) (up : Bool) (digits : List Nat) (kept : Nat) : Except Fault Nat := do
  let first ← require .outOfRange digits[kept]?
  let rest ← behind (kept + 1) digits
  let n ← count limit (← before kept digits)
  if goesUp up first rest then upTo limit (n + 1) else return n

/-- The double that is read where a count stands with its power of ten. -/
def rebuild (n : Nat) (power : Int) : Except Fault Float := do
  let d ← require .unreadable (readScaled? (Nat.toDigits 10 n ++ 'e' :: integerText power))
  return d.toFloat false

/-- What becomes of a double: it has no digits behind the last place and is kept, it has all its digits far
behind it and vanishes, or it is built again from a count of the last place. -/
inductive Result where
  | kept
  | vanished
  | rebuilt (n : Nat) (power : Int) (magnitude : Float)

/-- The rounded double, with the sign of the double that it comes from. -/
def Result.toFloat (x : Float) : Result → Float
  | kept => x
  | vanished => Double.ofRank (Double.isNegative x) 0
  | rebuilt _ _ r => Double.ofRank (Double.isNegative x) (Double.rank r)

/-- The rounding of digits of which the first counts a power of ten. -/
def ofDigits (limit : Nat) (up : Bool) (digits : List Nat) (exponent : Int) :
    Except Fault Result := do
  let places ← int32 (exponent + displayPlaces)
  let kept ← int32 (places + 1)
  let length ← int32 digits.length
  if length ≤ kept then return .kept
  else if kept < 0 then return .vanished
  else
    let n ← cut limit up digits kept.toNat
    let shift ← int32 (exponent - kept.toNat)
    let power ← int32 (shift + 1)
    return .rebuilt n power (← rebuild n power)

/-- The rounding of a double that is not zero. -/
def round (limit : Nat) (x : Float) : Except Fault Result := do
  let (digits, exponent) ← ofText (exponential.writeRank (Double.rank x))
  ofDigits limit (!Double.isNegative x) digits exponent

/-! ## The digits of the text -/

theorem int32_eq {i : Int} (hlow : -2147483648 ≤ i) (hhigh : i < 2147483648) : int32 i = .ok i :=
  if_pos ⟨hlow, hhigh⟩

/-- The first digit of a finite double counts a power of ten from `10⁻¹⁰⁷⁴` to `10³⁰⁸`. -/
theorem leadingExponent_bounds {k : Nat} (hpos : 0 < k) (hk : k < Double.infinityRank) :
    -1074 ≤ (shortest k).leadingExponent ∧ (shortest k).leadingExponent ≤ 308 := by
  constructor
  · have hlength : 0 < (shortest k).digits.length := List.length_pos_of_ne_nil (Decimal.digits_ne_nil _)
    have hexponent : -1074 ≤ (shortest k).exponent := by
      rw [shortest_eq]
      exact Int.le_sub_right_of_add_le (by simp)
    rw [Decimal.leadingExponent]
    omega
  · have hunits : Double.units Double.infinityRank < 10 ^ 309 * Double.unity := by decide +kernel
    have hlast : Double.magnitude Double.infinityRank < 10 ^ (309 : Int) := by
      rw [Double.magnitude, div_lt_iff₀ Double.cast_unity_pos]
      exact_mod_cast hunits
    have hvalue : (shortest k).value < 10 ^ (309 : Int) :=
      calc (shortest k).value ≤ Double.upperEnd k := (shortest_rounds k).upper
        _ ≤ Double.lowerEnd Double.infinityRank := Double.upperEnd_le_lowerEnd hk
        _ ≤ Double.magnitude Double.infinityRank := Double.lowerEnd_le_magnitude _
        _ < 10 ^ (309 : Int) := hlast
    by_contra hlt
    have hle := (Decimal.le_leadingExponent_iff (shortest_pos hpos) (e := 309)).mp (by omega)
    exact absurd hvalue (not_lt.mpr hle)

/-- **A text with an exponent has the digits of its decimal**, and its exponent is that of the first. -/
theorem ofText_scientific {d : Decimal} (hpos : 0 < d.coefficient) (hlast : ¬ 10 ∣ d.coefficient)
    (hlow : -2147483648 ≤ d.leadingExponent) (hhigh : d.leadingExponent < 2147483648) :
    ofText (scientific d.digits d.leadingExponent)
      = .ok (d.digits.map value, d.leadingExponent) := by
  obtain ⟨mantissa, htext, hplain, hdigits⟩ := exists_mantissa hpos hlast
  have hsplit (power : List Char) :
      splitOnce? 'e' (mantissa ++ 'e' :: power) = some (mantissa, power) := by
    obtain ⟨hbefore, hbehind⟩ := span_mark hplain.literal.isNumeral_of_mem power
    rw [splitOnce?, hbehind, hbefore]
  rw [ofText, htext, hsplit, ← hdigits]
  simp only [require, ok_bind, readInteger?_integerText, int32_eq hlow hhigh]
  rfl

/-- Every decimal is written with an exponent. -/
theorem write_exponential (d : Decimal) :
    exponential.write d = scientific d.digits d.leadingExponent :=
  if_neg Bool.false_ne_true

/-- The text of a finite magnitude has the digits of its shortest decimal. -/
theorem ofText_writeRank {k : Nat} (hpos : 0 < k) (hk : k < Double.infinityRank) :
    ofText (exponential.writeRank k)
      = .ok ((shortest k).digits.map value, (shortest k).leadingExponent) := by
  obtain ⟨hlow, hhigh⟩ := leadingExponent_bounds hpos hk
  rw [Layout.writeRank, if_neg hpos.ne', if_pos hk, write_exponential]
  exact ofText_scientific (shortest_pos hpos) (not_dvd_shortest hpos) (by omega) (by omega)

/-! ## Counting -/

/-- A number does not get smaller when digits are put behind it. -/
theorem le_ofDigitChars (cs : List Char) (n : Nat) : n ≤ Nat.ofDigitChars 10 cs n := by
  have hpow : 0 < 10 ^ cs.length := by positivity
  rw [Nat.ofDigitChars_eq_ofDigitChars_zero]
  exact Nat.le_add_right_of_le (Nat.le_mul_of_pos_left n hpow)

/-- **Digits are counted up within the limit**, if the number that they spell is within it: the count so
far is never larger than that. -/
theorem foldlM_upTo {limit : Nat} {cs : List Char} {n : Nat} (h : Nat.ofDigitChars 10 cs n ≤ limit) :
    (cs.map value).foldlM (fun n digit => upTo limit (n * 10 + digit)) n
      = .ok (Nat.ofDigitChars 10 cs n) := by
  induction cs generalizing n with
  | nil => rfl
  | cons c cs ih =>
    rw [Nat.ofDigitChars_cons] at h ⊢
    have hstep : n * 10 + value c = 10 * n + (c.toNat - '0'.toNat) := by rw [value, Nat.mul_comm]
    have hlimit := (le_ofDigitChars cs _).trans h
    rw [List.map_cons, List.foldlM_cons, hstep, upTo, if_pos hlimit, ok_bind]
    exact ih h

/-! ## The cut -/

/-- Digits are not all zero if they spell another number than zero. -/
theorem any_ne_zero_iff (cs : List Char) :
    (cs.map value).any (· != 0) = true ↔ Nat.ofDigitChars 10 cs 0 ≠ 0 := by
  induction cs with
  | nil => simp
  | cons c cs ih =>
    have hpow : 10 ^ cs.length ≠ 0 := by positivity
    have hnumber : Nat.ofDigitChars 10 (c :: cs) 0
        = 10 ^ cs.length * value c + Nat.ofDigitChars 10 cs 0 := by
      rw [Nat.ofDigitChars_cons, Nat.mul_zero, Nat.zero_add, Nat.ofDigitChars_eq_ofDigitChars_zero, value]
    rw [List.map_cons, List.any_cons, Bool.or_eq_true, ih, bne_iff_ne, hnumber, Ne, Ne, Ne,
      Nat.add_eq_zero_iff, Nat.mul_eq_zero, or_iff_right hpow, not_and_or]

theorem goesUp_iff {up : Bool} {first : Nat} {rest : List Nat} (h : first < 10) :
    goesUp up first rest = true
      ↔ 6 ≤ first ∨ first = 5 ∧ (rest.any (· != 0) = true ∨ up = true) := by
  interval_cases first <;> simp [goesUp]

/-- A number of which a digit is left out, and behind it less than a unit of this digit. -/
theorem roundTie_split (up : Bool) (q : Nat) {first r p : Nat} (hfirst : first < 10) (hr : r < p) :
    roundTie up (10 * p * q + (p * first + r)) (10 * p)
      = if 6 ≤ first ∨ first = 5 ∧ (r ≠ 0 ∨ up = true) then q + 1 else q := by
  have hless : p * first + r < 10 * p := by
    have := Nat.mul_le_mul_left p (Nat.le_of_lt_succ hfirst)
    omega
  have hdiv : (10 * p * q + (p * first + r)) / (10 * p) = q := by
    rw [Nat.mul_add_div (by omega), Nat.div_eq_of_lt hless, Nat.add_zero]
  have hmod : (10 * p * q + (p * first + r)) % (10 * p) = p * first + r := by
    rw [Nat.mul_add_mod, Nat.mod_eq_of_lt hless]
  simp only [roundTie, hdiv, hmod]
  congr 1
  rw [Bool.or_eq_true, Bool.and_eq_true, decide_eq_true_eq, beq_iff_eq, eq_iff_iff]
  -- From six on the rest is more than a half, at five a half or more, below less.
  interval_cases first <;> cases up <;> simp <;> omega

/-- **The cut rounds the number that the digits spell.** -/
theorem roundTie_digits (up : Bool) (front : List Char) {c : Char} {rest : List Char}
    (hc : c.isDigit = true) (hrest : ∀ d ∈ rest, d.isDigit = true) :
    roundTie up (Nat.ofDigitChars 10 (front ++ c :: rest) 0) (tenPow (rest.length + 1))
      = if goesUp up (value c) (rest.map value) then Nat.ofDigitChars 10 front 0 + 1
        else Nat.ofDigitChars 10 front 0 := by
  have hfirst : value c < 10 := (digitChar_of_isDigit hc).1
  have hlt := ofDigitChars_lt hrest
  have hnumber : Nat.ofDigitChars 10 (front ++ c :: rest) 0
      = 10 * 10 ^ rest.length * Nat.ofDigitChars 10 front 0
        + (10 ^ rest.length * value c + Nat.ofDigitChars 10 rest 0) := by
    rw [Nat.ofDigitChars_append, Nat.ofDigitChars_cons, Nat.ofDigitChars_eq_ofDigitChars_zero, value]
    ring
  have hden : tenPow (rest.length + 1) = 10 * 10 ^ rest.length := by
    rw [tenPow]
    exact Nat.pow_succ'
  rw [hnumber, hden, roundTie_split up _ hfirst hlt]
  congr 1
  rw [goesUp_iff hfirst, any_ne_zero_iff]

/-- **The cut stays within the limit and within the row.** -/
theorem cut_eq {limit : Nat} (up : Bool) {front : List Char} {c : Char} {rest : List Char}
    (hdigits : ∀ d ∈ front ++ c :: rest, d.isDigit = true) (hlimit : 10 ^ front.length ≤ limit) :
    let n := roundTie up (Nat.ofDigitChars 10 (front ++ c :: rest) 0) (tenPow (rest.length + 1))
    n ≤ 10 ^ front.length ∧ cut limit up ((front ++ c :: rest).map value) front.length = .ok n := by
  intro n
  obtain ⟨hfront, htail⟩ := List.forall_mem_append.mp hdigits
  obtain ⟨hc, hrest⟩ := List.forall_mem_cons.mp htail
  have hlt := ofDigitChars_lt hfront
  have hn : n = if goesUp up (value c) (rest.map value) then Nat.ofDigitChars 10 front 0 + 1
      else Nat.ofDigitChars 10 front 0 := roundTie_digits up front hc hrest
  have hbound : n ≤ 10 ^ front.length := by
    rw [hn]
    split <;> omega
  have hcount : count limit (front.map value) = .ok (Nat.ofDigitChars 10 front 0) :=
    foldlM_upTo (hlt.le.trans hlimit)
  have hfirst : ((front ++ c :: rest).map value)[front.length]? = some (value c) := by simp
  have hbefore : before front.length ((front ++ c :: rest).map value) = .ok (front.map value) := by
    rw [before, if_pos (by simp)]
    simp
  have hbehind : behind (front.length + 1) ((front ++ c :: rest).map value) = .ok (rest.map value) := by
    rw [behind, if_pos (by simp)]
    simp [List.drop_append]
  refine ⟨hbound, ?_⟩
  rw [cut, hfirst]
  simp only [require, ok_bind, hbefore, hbehind, hcount]
  rw [hn] at hbound ⊢
  split
  case isTrue hup =>
    rw [if_pos hup] at hbound
    exact if_pos (hbound.trans hlimit)
  case isFalse => rfl

/-- A count is read as the number that it is, with its power of ten. -/
theorem rebuild_eq (n : Nat) (power : Int) :
    rebuild n power = .ok ((⟨n, power⟩ : Decimal).toFloat false) := by
  have hliteral := Literal.whole (Nat.toDigits_ne_nil (n := n) (b := 10)) (isWhole_toDigits n).isDigit
  rw [rebuild, readScaled?_append hliteral, Nat.ofDigitChars_ten_toDigits, Int.zero_add]
  rfl

/-! ## The whole rounding -/

/-- Less than a half is rounded to nothing. -/
theorem roundTie_eq_zero (up : Bool) {num den : Nat} (h : 2 * num < den) : roundTie up num den = 0 := by
  have hdiv : num / den = 0 := Nat.div_eq_of_lt (by omega)
  have hmod : num % den = num := Nat.mod_eq_of_lt (by omega)
  simp only [roundTie, hdiv, hmod]
  rw [if_neg (by simp; omega)]

/-- A decimal is rounded to nothing if its first digit stands behind the first place that is left out. -/
theorem roundToPlaces_of_small (negative : Bool) {d : Decimal}
    (h : d.leadingExponent + displayPlaces + 1 < 0) :
    roundToPlaces negative d = ⟨0, -displayPlaces⟩ := by
  have hlt := ofDigitChars_lt (isDigit_of_mem_digits (d := d))
  rw [ofDigitChars_digits] at hlt
  have hsurplus : d.digits.length + 1 ≤ (-(displayPlaces : Int) - d.exponent).toNat := by
    rw [Decimal.leadingExponent] at h
    omega
  have hpow : 10 ^ (d.digits.length + 1) ≤ tenPow (-(displayPlaces : Int) - d.exponent).toNat :=
    Nat.pow_le_pow_right (by decide) hsurplus
  rw [pow_succ] at hpow
  rw [roundToPlaces, roundTie_eq_zero _ (by omega)]

/-- A row of digits by what stands before a place, at it and behind it. -/
theorem exists_eq_append_cons {digits : List Char} {place : Nat} (h : place < digits.length) :
    ∃ front c rest, digits = front ++ c :: rest ∧ front.length = place := by
  refine ⟨digits.take place, digits[place], digits.drop (place + 1), ?_, List.length_take_of_le h.le⟩
  rw [← List.drop_eq_getElem_cons h, List.take_append_drop]

section

variable {limit : Nat} {d : Decimal}

/-- **A decimal is rounded by a cut of its digits** where the last place is among them. -/
theorem cut_digits (negative : Bool) {kept : Nat} (hlimit : 10 ^ kept ≤ limit)
    (hkept : d.leadingExponent + displayPlaces + 1 = kept) (hless : kept < d.digits.length) :
    ∃ n ≤ 10 ^ kept, roundToPlaces negative d = ⟨n, -displayPlaces⟩
      ∧ cut limit (!negative) (d.digits.map value) kept = .ok n := by
  have hall := isDigit_of_mem_digits (d := d)
  have hcoefficient := ofDigitChars_digits d
  obtain ⟨front, c, rest, hdigits, rfl⟩ := exists_eq_append_cons hless
  -- The digits that are left out are those that the display has no place for.
  have hsurplus : (-(displayPlaces : Int) - d.exponent).toNat = rest.length + 1 := by
    rw [Decimal.leadingExponent, hdigits, List.length_append, List.length_cons] at hkept
    omega
  rw [hdigits] at hall hcoefficient ⊢
  obtain ⟨hbound, hcut⟩ := cut_eq (!negative) hall hlimit
  rw [hcoefficient, ← hsurplus] at hbound hcut
  exact ⟨_, hbound, rfl, hcut⟩

variable (hlength : d.digits.length ≤ 17) (hlow : -1074 ≤ d.leadingExponent)
  (hhigh : d.leadingExponent ≤ 308)

include hlength hlow hhigh

/-- The integers of the rounding have their places among those of 32 bits, and the power of ten is the last
place of the display. -/
theorem ofDigits_eq (up : Bool) {kept : Int} (hkept : d.leadingExponent + displayPlaces + 1 = kept) :
    ofDigits limit up (d.digits.map value) d.leadingExponent
      = if d.digits.length ≤ kept then .ok .kept
        else if kept < 0 then .ok .vanished
        else (cut limit up (d.digits.map value) kept.toNat).map fun n =>
          .rebuilt n (-displayPlaces) ((⟨n, -displayPlaces⟩ : Decimal).toFloat false) := by
  have htwelve : (displayPlaces : Int) = 12 := rfl
  have hplaces := int32_eq (i := d.leadingExponent + displayPlaces) (by omega) (by omega)
  have hfits := int32_eq (i := kept) (by omega) (by omega)
  have hcount := int32_eq (i := d.digits.length) (by omega) (by omega)
  simp only [ofDigits, List.length_map, hplaces, hkept, hfits, hcount, ok_bind]
  split
  case isTrue => rfl
  split
  case isTrue => rfl
  have hshift := int32_eq (i := d.leadingExponent - kept.toNat) (by omega) (by omega)
  have hlast : d.leadingExponent - kept.toNat + 1 = -displayPlaces := by omega
  have hpower := int32_eq (i := -displayPlaces) (by omega) (by omega)
  simp only [hshift, hlast, hpower, rebuild_eq, ok_bind]
  cases cut limit up (d.digits.map value) kept.toNat <;> rfl

/-- **The rounding of digits** keeps a decimal without digits behind the last place, and otherwise gives
what the display rounds it to: zero if all its digits are far behind, else a count of the last place. -/
theorem ofDigits_spec (hlimit : 10 ^ 16 ≤ limit) (negative : Bool) :
    let result := ofDigits limit (!negative) (d.digits.map value) d.leadingExponent
    (-(displayPlaces : Int) ≤ d.exponent → result = .ok .kept)
      ∧ (d.exponent < -displayPlaces → ∃ n ≤ 10 ^ 16, roundToPlaces negative d = ⟨n, -displayPlaces⟩
        ∧ (n = 0 ∧ result = .ok .vanished ∨ result
          = .ok (.rebuilt n (-displayPlaces) ((⟨n, -displayPlaces⟩ : Decimal).toFloat false)))) := by
  intro result
  have hpos : 0 < d.digits.length := List.length_pos_of_ne_nil d.digits_ne_nil
  have hexponent : d.leadingExponent = d.exponent + (d.digits.length - 1) := rfl
  rw [show result = _ from ofDigits_eq hlength hlow hhigh _ rfl]
  constructor
  · intro hcoarse
    rw [if_pos (by omega)]
  · intro hfine
    rw [if_neg (by omega)]
    by_cases hsmall : d.leadingExponent + displayPlaces + 1 < 0
    · refine ⟨0, Nat.zero_le _, roundToPlaces_of_small negative hsmall, .inl ⟨rfl, ?_⟩⟩
      rw [if_pos hsmall]
    · obtain ⟨kept, hkept⟩ := Int.eq_ofNat_of_zero_le (Int.not_lt.mp hsmall)
      have hpow : 10 ^ kept ≤ 10 ^ 16 := Nat.pow_le_pow_right (by decide) (by omega)
      obtain ⟨n, hn, hdecimal, hcut⟩ :=
        cut_digits negative (hpow.trans hlimit) hkept (by omega)
      refine ⟨n, hn.trans hpow, hdecimal, .inr ?_⟩
      rw [if_neg hsmall, hkept, Int.toNat_natCast, hcut]
      rfl

end

/-- **The rounding of the display can be done digit by digit**, and nothing goes wrong. For a finite double
that is not zero the text has one to seventeen digits. Every text is read, every place is there and no
integer overflows, though no count may be larger than `10¹⁶`. The result is the rounded double, and what is
built again is finite, from a count of the last place. -/
theorem round_eq_ok {limit : Nat} (hlimit : 10 ^ 16 ≤ limit) {x : Float}
    (hx : Double.isFinite x = true) (hzero : Double.rank x ≠ 0) :
    (∃ digits exponent, ofText (exponential.writeRank (Double.rank x)) = .ok (digits, exponent)
        ∧ 1 ≤ digits.length ∧ digits.length ≤ 17)
      ∧ ∃ result, round limit x = .ok result ∧ result.toFloat x = rounded x
        ∧ ∀ n power magnitude, result = .rebuilt n power magnitude →
            n ≤ 10 ^ 16 ∧ power = -12 ∧ Double.isFinite magnitude = true := by
  have hpos := Nat.pos_of_ne_zero hzero
  have hrank := Double.isFinite_iff.mp hx
  have htext := ofText_writeRank hpos hrank
  have hlength := length_shortest_le_seventeen hpos
  obtain ⟨hlow, hhigh⟩ := leadingExponent_bounds hpos hrank
  obtain ⟨hcoarse, hfine⟩ := ofDigits_spec hlength hlow hhigh hlimit (Double.isNegative x)
  have hrest : round limit x = ofDigits limit (!Double.isNegative x)
      ((shortest (Double.rank x)).digits.map value) (shortest (Double.rank x)).leadingExponent := by
    rw [round, htext, ok_bind]
  rw [← hrest] at hcoarse hfine
  constructor
  · refine ⟨_, _, htext, ?_, ?_⟩ <;> rw [List.length_map]
    · exact List.length_pos_of_ne_nil (Decimal.digits_ne_nil _)
    · exact hlength
  rcases le_or_gt (-(displayPlaces : Int)) (shortest (Double.rank x)).exponent with hkept | hless
  · exact ⟨.kept, hcoarse hkept, (rounded_of_le_exponent (.inr hkept)).symm, nofun⟩
  obtain ⟨n, hn, hdecimal, hresult⟩ := hfine hless
  obtain ⟨j, hj, hrounded, hrounds, -⟩ := exists_rounded_eq hzero hless
  rw [hdecimal] at hrounds
  rw [hrounded]
  rcases hresult with ⟨rfl, hvanished⟩ | hrebuilt
  · have hnone : Decimal.value ⟨0, -displayPlaces⟩ = 0 := Decimal.value_eq_zero_iff.mpr rfl
    rw [hnone, Rounds.zero_iff] at hrounds
    rw [hrounds]
    exact ⟨.vanished, hvanished, rfl, nofun⟩
  · rw [Decimal.toFloat_of_rounds hrounds hj.le] at hrebuilt
    refine ⟨_, hrebuilt, ?_, ?_⟩
    · rw [Result.toFloat, Double.rank_ofRank false hj.le]
    · rintro _ _ _ ⟨⟩
      exact ⟨hn, rfl, Double.isFinite_ofRank false hj⟩

/-- Counts of 64 bits are more than enough. Between `4096` and `8192` a text can have seventeen digits, of
which sixteen are kept; here the last is a tie, and the count goes up. -/
theorem round_eq_ok_seventeen_digits :
    let limit := 18446744073709551615
    let x := (⟨41968187755312165, -13⟩ : Decimal).toFloat false
    10 ^ 16 ≤ limit ∧ Double.isFinite x = true ∧ Double.rank x ≠ 0
      ∧ exponential.writeRank (Double.rank x) = "4.1968187755312165e3".toList
      ∧ cut limit true [4, 1, 9, 6, 8, 1, 8, 7, 7, 5, 5, 3, 1, 2, 1, 6, 5] 16 = .ok 4196818775531217
      ∧ (∃ digits exponent, ofText (exponential.writeRank (Double.rank x)) = .ok (digits, exponent)
        ∧ 1 ≤ digits.length ∧ digits.length ≤ 17)
      ∧ ∃ result, round limit x = .ok result ∧ result.toFloat x = rounded x
        ∧ ∀ n power magnitude, result = .rebuilt n power magnitude →
            n ≤ 10 ^ 16 ∧ power = -12 ∧ Double.isFinite magnitude = true := by
  intro limit x
  have hlimit : 10 ^ 16 ≤ limit := by decide
  have hx : Double.isFinite x = true := by decide +kernel
  have hzero : Double.rank x ≠ 0 := by decide +kernel
  exact ⟨hlimit, hx, hzero, by decide +kernel, rfl, round_eq_ok hlimit hx hzero⟩

end Calculator.Digits
