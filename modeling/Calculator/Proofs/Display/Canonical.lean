import Calculator.Proofs.Decimal.Canonical
import Calculator.Proofs.Display.Rereading
import Calculator.Proofs.Double.Order

/-!
# The canonical text of a number

The display has one text for each number: in full where this takes few zeros, with an exponent for
the very large and the very small numbers, and without superfluous zeros. What it shows has been
rounded, so two results have one text if they are rounded to one number.

* `readNumber?` is the number that a text spells, and `Canonical` says which text a number has;
* `Canonical.eq_of_plain` says that a decimal in full is the text of its number, where numbers are
  written in full;
* `isPositional_result_iff` says which numbers are written in full, by comparing the doubles;
* `canonical_display` is the text on the display, `readNumber?_display` the number that it spells;
* `display_canonical` says so of one result, and of two when they are shown alike;
* `shownNumber_le_of_le` says that a larger result is not shown as a smaller number, from which
  `display_monotone` follows.
-/

namespace Calculator

/-! ## Texts of numbers -/

/-- The number that a text spells. -/
def readNumber? (cs : List Char) : Option ℚ :=
  (readSigned? cs).map fun (negative, d) => d.signed negative

/-- The text of a number: in full and with at most twelve decimal places from `10⁻⁶` on and below
`10²¹`, with an exponent beyond. No sign stands before zero. -/
inductive Canonical : List Char → ℚ → Prop
  | zero : Canonical ['0'] 0
  | plain {cs : List Char} {d : Decimal} (negative : Bool) : Plain cs d →
      -(displayPlaces : Int) ≤ d.exponent → (10 : ℚ) ^ (-6 : Int) ≤ d.value → d.value < 10 ^ 21 →
      Canonical (withSign negative cs) (d.signed negative)
  | scientific {cs : List Char} {d : Decimal} (negative : Bool) : Scientific cs d → 0 < d.value →
      d.value < 10 ^ (-6 : Int) ∨ 10 ^ 21 ≤ d.value →
      Canonical (withSign negative cs) (d.signed negative)

/-- A decimal that is not zero is told by its sign and its magnitude. -/
theorem Decimal.signed_inj {negative negative' : Bool} {d e : Decimal} (hd : 0 < d.value)
    (h : d.signed negative = e.signed negative') : negative = negative' ∧ d.value = e.value := by
  have he := e.value_nonneg
  cases negative <;> cases negative' <;>
    simp only [signed, Bool.false_eq_true, if_false, if_true] at h
  case false.false => exact ⟨rfl, h⟩
  case true.true => exact ⟨rfl, neg_injective h⟩
  all_goals
    exfalso
    linarith

/-- What is read as a decimal without digits that count is read as zero. -/
theorem readNumber?_eq_zero {cs : List Char} {negative : Bool} {d : Decimal}
    (h : readSigned? cs = some (negative, d)) (hd : d.coefficient = 0) : readNumber? cs = some 0 := by
  have hzero : d.signed negative = 0 := by rwa [Decimal.signed_eq_zero_iff, Decimal.value_eq_zero_iff]
  rw [readNumber?, h]
  exact congrArg some hzero

/-- Zero is written in full. -/
theorem plain_zero : Plain ['0'] ⟨0, 0⟩ :=
  .whole (isWhole_toDigits 0)

namespace Canonical

variable {cs ds : List Char} {d : Decimal}

/-- Zero has one text. -/
theorem eq_of_zero (h : Canonical cs 0) : cs = ['0'] := by
  have hsmall : (0 : ℚ) < 10 ^ (-6 : Int) := by positivity
  generalize hv : (0 : ℚ) = v at h
  cases h with
  | zero => rfl
  | plain negative _ _ hlow _ =>
    exact absurd (Decimal.signed_eq_zero_iff.mp hv.symm) (hsmall.trans_le hlow).ne'
  | scientific negative _ hpos _ => exact absurd (Decimal.signed_eq_zero_iff.mp hv.symm) hpos.ne'

/-- **A decimal in full is the text of its number** where numbers are written in full. -/
theorem eq_of_plain (h : Canonical cs d.value) (hplain : Plain ds d)
    (hrange : d.value = 0 ∨ (10 : ℚ) ^ (-6 : Int) ≤ d.value ∧ d.value < 10 ^ 21) : cs = ds := by
  have hsmall : (0 : ℚ) < 10 ^ (-6 : Int) := by positivity
  generalize hv : d.value = v at h
  cases h with
  | zero => exact plain_zero.unique hplain (by rw [hv, Decimal.value_eq_zero_iff])
  | @plain cs e negative he _ hlow _ =>
    have hunsigned : e.signed negative = d.signed false := hv.symm
    obtain ⟨rfl, hvalue⟩ := Decimal.signed_inj (hsmall.trans_le hlow) hunsigned
    exact he.unique hplain hvalue
  | @scientific cs e negative _ hpos hbeyond =>
    have hunsigned : e.signed negative = d.signed false := hv.symm
    obtain ⟨rfl, hvalue⟩ := Decimal.signed_inj hpos hunsigned
    rw [hvalue] at hpos hbeyond
    rcases hrange with hzero | ⟨hlow, hhigh⟩
    · exact absurd hzero hpos.ne'
    · rcases hbeyond with hless | hmore
      · exact absurd hless (not_lt.mpr hlow)
      · exact absurd hmore (not_le.mpr hhigh)

end Canonical

/-! ## The text on the display -/

/-- What the display is laid out as. -/
theorem canonical_write (negative : Bool) {d : Decimal} (hpos : 0 < d.coefficient)
    (hlast : ¬ 10 ∣ d.coefficient) (hplaces : -(displayPlaces : Int) ≤ d.exponent) :
    Canonical (withSign negative (Layout.result.write d)) (d.signed negative) := by
  have hvalue : 0 < d.value := by
    rw [Decimal.value]
    positivity
  have hlow := Decimal.le_leadingExponent_iff hpos (e := -6)
  have hhigh := Decimal.le_leadingExponent_iff hpos (e := 21)
  by_cases hfull : -6 ≤ d.leadingExponent ∧ d.leadingExponent < 21
  · -- In full: the number that is written has no more places, as its last digit counts.
    have htext : Layout.result.write d = positional [] d.digits d.exponent :=
      if_pos (by simpa [Layout.result] using hfull)
    obtain ⟨e, hplain, he⟩ := exists_plain_positional hpos hlast
    have hplaces' : -(displayPlaces : Int) ≤ e.exponent := by
      rcases hplain.exponent_eq_zero_or with hzero | ⟨-, hcounts⟩
      · omega
      · refine hplaces.trans (not_lt.mp fun hlt => hcounts ?_)
        exact Decimal.dvd_of_value_eq he hlt
    rw [htext, ← Decimal.signed_congr negative he]
    refine .plain negative hplain hplaces' ?_ ?_
    · rw [he]
      exact hlow.mp hfull.1
    · rw [he, ← not_le]
      intro h
      exact absurd hfull.2 (not_lt.mpr (hhigh.mpr h))
  · have htext : Layout.result.write d = scientific d.digits d.leadingExponent :=
      if_neg (by simpa [Layout.result] using hfull)
    rw [htext]
    refine .scientific negative (scientific_digits hpos hlast) hvalue ?_
    rcases not_and_or.mp hfull with hless | hmore
    · left
      rw [← not_le]
      exact fun h => hless (hlow.mpr h)
    · exact .inr (hhigh.mp (not_lt.mp hmore))

/-- The first digit of a shortest decimal counts a power of ten or more if the double is no smaller than
the double of this power. -/
theorem le_leadingExponent_shortest_iff {x t : Float} {e : Int} (hx : Double.isFinite x = true)
    (hpos : 0 < Double.rank x) (ht : Double.isFinite t = true) (hsign : Double.isNegative t = false)
    (hpower : shortest (Double.rank t) = ⟨1, e⟩) :
    e ≤ (shortest (Double.rank x)).leadingExponent ↔ t ≤ x.abs := by
  have hk := Double.isFinite_iff.mp hx
  have hplace : Double.place t = Double.rank t := by
    rw [Double.place, hsign]
    rfl
  have hplace' : Double.place (Double.ofRank false (Double.rank x)) = Double.rank x := by
    rw [Double.place, Double.isNegative_ofRank _ hk.le, Double.rank_ofRank _ hk.le]
    rfl
  -- The power of ten is a shortest decimal too, and these are in the order of the doubles.
  have hvalue : (10 : ℚ) ^ e = (shortest (Double.rank t)).value := by
    rw [hpower, Decimal.value, Nat.cast_one, one_mul]
  rw [Decimal.le_leadingExponent_iff (shortest_pos hpos), hvalue, Double.abs_eq_ofRank hx,
    Double.le_iff_place_le ht (Double.isFinite_ofRank false hk), hplace, hplace', Nat.cast_le]
  exact shortest_strictMono.le_iff_le

/-- **Which results are written in full**: those from `10⁻⁶` on and below `10²¹`, compared as doubles. -/
theorem isPositional_result_iff {x : Float} (hx : Double.isFinite x = true) (hpos : 0 < Double.rank x) :
    Layout.result.isPositional (shortest (Double.rank x)).leadingExponent = true
      ↔ 1e-6 ≤ x.abs ∧ x.abs < 1e21 := by
  have hlow : -6 ≤ (shortest (Double.rank x)).leadingExponent ↔ 1e-6 ≤ x.abs :=
    le_leadingExponent_shortest_iff hx hpos (by decide +kernel) (by decide +kernel) (by decide +kernel)
  have hlarge : Double.isFinite 1e21 = true := by decide +kernel
  have hhigh : 21 ≤ (shortest (Double.rank x)).leadingExponent ↔ 1e21 ≤ x.abs :=
    le_leadingExponent_shortest_iff hx hpos hlarge (by decide +kernel) (by decide +kernel)
  have habs : Double.isFinite x.abs = true := by
    rw [Double.abs_eq_ofRank hx]
    exact Double.isFinite_ofRank false (Double.isFinite_iff.mp hx)
  rw [Double.le_iff_place_le hlarge habs] at hhigh
  rw [← hlow, Double.lt_iff_place_lt habs hlarge, ← not_le, ← hhigh, not_le]
  simp [Layout.result]

/-- A positive rank is written as its shortest decimal, behind the sign. -/
theorem Layout.writeFloat_of_rank_pos (l : Layout) {x : Float} (hx : Double.isFinite x = true)
    (h : 0 < Double.rank x) :
    l.writeFloat x = withSign (Double.isNegative x) (l.write (shortest (Double.rank x))) := by
  rw [l.writeFloat_eq hx, writeRank, if_neg h.ne', if_pos (Double.isFinite_iff.mp hx)]

/-- The number on the display: the shortest decimal of the rounded result, with its sign. -/
def shownNumber (x : Float) : ℚ :=
  (shortest (Double.rank (rounded x))).signed (Double.isNegative (rounded x))

/-- Zero is shown of a result that is rounded to zero. -/
theorem shownNumber_eq_zero_iff {x : Float} : shownNumber x = 0 ↔ Double.rank (rounded x) = 0 := by
  rw [shownNumber, Decimal.signed_eq_zero_iff, shortest_value_eq_zero_iff]

/-- Numbers are shown in the order of the rounded results. -/
theorem shownNumber_le_iff (x y : Float) :
    shownNumber x ≤ shownNumber y ↔ Double.place (rounded x) ≤ Double.place (rounded y) :=
  Double.signed_le_iff shortest_strictMono shortest_zero (rounded x) (rounded y)

section

variable {x y : Float} (hx : Double.isFinite x = true) (hy : Double.isFinite y = true)

include hx

/-- A result that is rounded to zero is shown without a sign. -/
theorem display_of_rank_zero (h : Double.rank (rounded x) = 0) : display x = "0" := by
  rw [display, if_pos hx]
  exact if_pos h

/-- Any other result is shown as the rounded one is written. -/
theorem display_of_rank_pos (h : 0 < Double.rank (rounded x)) :
    (display x).toList = Layout.result.writeFloat (rounded x) := by
  have htext : display x = String.ofList (Layout.result.writeFloat (rounded x)) := by
    rw [display, if_pos hx]
    exact if_neg h.ne'
  rw [htext, String.toList_ofList]

/-- **The text on the display is the one of the number that is shown.** -/
theorem canonical_display : Canonical (display x).toList (shownNumber x) := by
  obtain ⟨hfinite, -, -⟩ := rounded_spec hx
  obtain ⟨n, hn⟩ := exists_shortest_rounded hx
  rcases Nat.eq_zero_or_pos (Double.rank (rounded x)) with hzero | hpos
  · rw [display_of_rank_zero hx hzero, shownNumber_eq_zero_iff.mpr hzero]
    exact .zero
  · rw [display_of_rank_pos hx hpos, Layout.result.writeFloat_of_rank_pos hfinite hpos]
    exact canonical_write _ (shortest_pos hpos) (not_dvd_shortest hpos) (le_exponent_shortest hpos hn)

/-- **The number that is shown is what the text on the display spells.** -/
theorem readNumber?_display : readNumber? (display x).toList = some (shownNumber x) := by
  obtain ⟨hfinite, -, -⟩ := rounded_spec hx
  rcases Nat.eq_zero_or_pos (Double.rank (rounded x)) with hzero | hpos
  · rw [display_of_rank_zero hx hzero, shownNumber_eq_zero_iff.mpr hzero]
    exact readNumber?_eq_zero (d := ⟨0, 0⟩) rfl rfl
  · obtain ⟨d, hread, hvalue⟩ := readSigned?_writeFloat (l := Layout.result) (.inl rfl) hfinite
    rw [display_of_rank_pos hx hpos, readNumber?, hread]
    exact congrArg some (Decimal.signed_congr _ hvalue)

include hy

/-- **Two results are shown alike if they are rounded to one number.** -/
theorem display_eq_iff : display x = display y ↔ (rounded x == rounded y) = true := by
  obtain ⟨hfinite, -, -⟩ := rounded_spec hx
  obtain ⟨hfinite', -, -⟩ := rounded_spec hy
  rw [Double.beq_iff_place_eq hfinite hfinite']
  constructor
  · intro h
    have hshown := readNumber?_display hx
    rw [h, readNumber?_display hy, Option.some_inj] at hshown
    exact le_antisymm ((shownNumber_le_iff x y).mp hshown.ge) ((shownNumber_le_iff y x).mp hshown.le)
  · intro h
    rcases Double.eq_of_place_eq hfinite hfinite' h with heq | ⟨hzero, hzero'⟩
    · rw [← display_rounded hx, ← display_rounded hy, heq]
    · rw [display_of_rank_zero hx hzero, display_of_rank_zero hy hzero']

/-- **The display is canonical.** What stands on it is the text of the number that it spells: `0`, or in
full, or with an exponent, as its size says, and never a zero with a sign. So two results are shown
alike if and only if they are rounded to one number. -/
theorem display_canonical :
    (readNumber? (display x).toList = some (shownNumber x)
        ∧ Canonical (display x).toList (shownNumber x))
      ∧ display x ≠ "-0"
      ∧ (display x = display y ↔ (rounded x == rounded y) = true) := by
  have hcanonical := canonical_display hx
  have hread := readNumber?_display hx
  refine ⟨⟨hread, hcanonical⟩, fun hzero => ?_, display_eq_iff hx hy⟩
  have hnone : readNumber? "-0".toList = some 0 := readNumber?_eq_zero (d := ⟨0, 0⟩) rfl rfl
  -- What is read as zero is shown as zero.
  rw [hzero, hnone, Option.some_inj] at hread
  rw [hzero, ← hread] at hcanonical
  exact absurd hcanonical.eq_of_zero (by decide)

end

/-- Just below `10⁻⁶` a result is rounded up to it, and then it is shown in full. -/
theorem display_canonical_rounded_up :
    let x := (⟨9999999999996, -19⟩ : Decimal).toFloat false
    let y := (⟨1, -6⟩ : Decimal).toFloat false
    Double.isFinite x = true ∧ Double.isFinite y = true ∧ display x = "0.000001"
      ∧ (readNumber? (display x).toList = some (shownNumber x)
        ∧ Canonical (display x).toList (shownNumber x))
      ∧ display x ≠ "-0"
      ∧ (display x = display y ↔ (rounded x == rounded y) = true) := by
  intro x y
  have hx : Double.isFinite x = true := by decide +kernel
  have hy : Double.isFinite y = true := by decide +kernel
  have htext : display x = "0.000001" := by decide +kernel
  exact ⟨hx, hy, htext, display_canonical hx hy⟩

/-! ## The order on the display -/

section

variable {x y : Float} (hx : Double.isFinite x = true) (hy : Double.isFinite y = true)

include hx

/-- What is shown is the shortest decimal of the result, rounded. -/
theorem shownNumber_eq_toPlaces :
    shownNumber x = toPlaces ((shortest (Double.rank x)).signed (Double.isNegative x)) := by
  obtain ⟨-, hsign, hrounded⟩ := rounded_spec hx
  rw [shownNumber, hsign, hrounded]

include hy

/-- A larger result is not shown as a smaller number: the shortest decimals are in the order of the
results, and rounding keeps the order. -/
theorem shownNumber_le_of_le (h : x ≤ y) : shownNumber x ≤ shownNumber y := by
  have hplace := (Double.le_iff_place_le hx hy).mp h
  have hshortest : (shortest (Double.rank x)).signed (Double.isNegative x)
      ≤ (shortest (Double.rank y)).signed (Double.isNegative y) :=
    (Double.signed_le_iff shortest_strictMono shortest_zero x y).mpr hplace
  rw [shownNumber_eq_toPlaces hx, shownNumber_eq_toPlaces hy]
  exact toPlaces_mono hshortest

/-- **The display is monotone.** Of two finite results the larger does not show the smaller number, and
it is not rounded to the smaller double. -/
theorem display_monotone (h : x ≤ y) :
    (∃ p q, readNumber? (display x).toList = some p ∧ readNumber? (display y).toList = some q
        ∧ p ≤ q)
      ∧ rounded x ≤ rounded y := by
  obtain ⟨hfinite, -, -⟩ := rounded_spec hx
  obtain ⟨hfinite', -, -⟩ := rounded_spec hy
  have hshown := shownNumber_le_of_le hx hy h
  refine ⟨⟨_, _, readNumber?_display hx, readNumber?_display hy, hshown⟩, ?_⟩
  rw [Double.le_iff_place_le hfinite hfinite']
  exact (shownNumber_le_iff x y).mp hshown

end

/-- The larger of two numbers is halfway between two multiples of `10⁻¹²` and goes up, towards zero as
it is negative; the smaller is beyond the halfway and goes down. -/
theorem display_monotone_across_tie :
    let x := (⟨251, -14⟩ : Decimal).toFloat true
    let y := (⟨25, -13⟩ : Decimal).toFloat true
    Double.isFinite x = true ∧ Double.isFinite y = true ∧ x ≤ y ∧ display x = "-3e-12"
      ∧ display y = "-2e-12"
      ∧ (∃ p q, readNumber? (display x).toList = some p ∧ readNumber? (display y).toList = some q
        ∧ p ≤ q)
      ∧ rounded x ≤ rounded y := by
  intro x y
  have hx : Double.isFinite x = true := by decide +kernel
  have hy : Double.isFinite y = true := by decide +kernel
  have hle : x ≤ y := by decide +kernel
  have htext : display x = "-3e-12" := by decide +kernel
  have htext' : display y = "-2e-12" := by decide +kernel
  exact ⟨hx, hy, hle, htext, htext', display_monotone hx hy hle⟩

end Calculator
