import Calculator.Proofs.Display.Rounding

/-!
# Reading the display

A result that has been rounded is not rounded again: its shortest decimal fits the display already.
So what stands on the display, typed in again, is shown as it stands there.

* `readDouble?` is the double that a text is read as, `readDouble?_writeFloat` gives a written double
  back;
* `le_exponent_shortest` says that a shortest decimal that is a multiple of `10⁻¹²` is written with no
  more places;
* `rounded_rounded` is the double rounding, `display_reread` the double display.
-/

namespace Calculator

open Double (Rounds)

/-! ## Doubles that are read -/

/-- The double that a text is read as. -/
def readDouble? (cs : List Char) : Option Float :=
  (readSigned? cs).map fun (negative, d) => d.toFloat negative

/-- **A written double is read as itself.** -/
theorem readDouble?_writeFloat {l : Layout} (hl : IsWholeMark l.wholeMark) {x : Float}
    (hx : Double.isFinite x = true) : readDouble? (l.writeFloat x) = some x := by
  obtain ⟨d, hread, hvalue⟩ := readSigned?_writeFloat hl hx
  have hrounds : Rounds (Double.rank x) d.value := by
    rw [hvalue]
    exact shortest_rounds _
  rw [readDouble?, hread]
  exact congrArg some ((Decimal.toFloat_eq_iff hx).mpr hrounds)

/-! ## The double rounding -/

/-- A double is kept if it is zero or its shortest decimal fits the display. -/
theorem rounded_of_le_exponent {x : Float}
    (h : Double.rank x = 0 ∨ -(displayPlaces : Int) ≤ (shortest (Double.rank x)).exponent) :
    rounded x = x :=
  if_pos (by simpa using h)

/-- A shortest decimal that is a multiple of `10⁻¹²` has no more places than the display. -/
theorem le_exponent_shortest {k n : Nat} (hk : 0 < k)
    (h : (shortest k).value = (n : ℚ) / 10 ^ displayPlaces) :
    -(displayPlaces : Int) ≤ (shortest k).exponent := by
  have hrounds : Rounds k (Decimal.value ⟨n, -displayPlaces⟩) := by
    rw [value_displayPlaces, ← h]
    exact shortest_rounds k
  exact shortest_coarsest (coefficient_pos_of_rounds hk hrounds) hrounds

/-- A decimal is as large as it is with a sign. -/
theorem Decimal.abs_signed (negative : Bool) (d : Decimal) : |d.signed negative| = d.value := by
  cases negative <;> simp [signed, abs_of_nonneg d.value_nonneg]

/-- The shortest decimal of a rounded double is a multiple of `10⁻¹²`. -/
theorem exists_shortest_rounded {x : Float} (hx : Double.isFinite x = true) :
    ∃ n : Nat, (shortest (Double.rank (rounded x))).value = (n : ℚ) / 10 ^ displayPlaces := by
  have hpow : (0 : ℚ) < 10 ^ displayPlaces := by positivity
  obtain ⟨-, -, hsigned⟩ := rounded_spec hx
  refine ⟨(round ((shortest (Double.rank x)).signed (Double.isNegative x)
    * 10 ^ displayPlaces)).natAbs, ?_⟩
  rw [← Decimal.abs_signed (Double.isNegative x), hsigned, toPlaces, abs_div, abs_of_pos hpow,
    Nat.cast_natAbs, Int.cast_abs]

/-- **Rounding twice is rounding once**, with the sign of a zero. -/
theorem rounded_rounded {x : Float} (hx : Double.isFinite x = true) :
    rounded (rounded x) = rounded x := by
  obtain ⟨n, hn⟩ := exists_shortest_rounded hx
  apply rounded_of_le_exponent
  rcases Nat.eq_zero_or_pos (Double.rank (rounded x)) with hzero | hpos
  · exact .inl hzero
  · exact .inr (le_exponent_shortest hpos hn)

/-- A rounded result is shown as the result is. -/
theorem display_rounded {x : Float} (hx : Double.isFinite x = true) :
    display (rounded x) = display x := by
  obtain ⟨hfinite, -, -⟩ := rounded_spec hx
  rw [display, display, if_pos hfinite, if_pos hx, rounded_rounded hx]

/-! ## The double display -/

/-- **What is shown is shown again.** The text on the display of a finite result is read as a finite
double that is shown by the same text; and a result that has been rounded is not changed by rounding,
bit for bit. -/
theorem display_reread {x : Float} (hx : Double.isFinite x = true) :
    (∃ y, readDouble? (display x).toList = some y ∧ Double.isFinite y = true
        ∧ display y = display x)
      ∧ rounded (rounded x) = rounded x := by
  refine ⟨?_, rounded_rounded hx⟩
  obtain ⟨hfinite, -, -⟩ := rounded_spec hx
  by_cases hzero : Double.rank (rounded x) = 0
  · -- The zero that is read has no sign, whatever the sign of the result.
    have htext : display x = "0" := by
      rw [display, if_pos hx]
      exact if_pos hzero
    rw [htext]
    exact ⟨(⟨0, 0⟩ : Decimal).toFloat false, rfl, by decide +kernel, by decide +kernel⟩
  · have htext : display x = String.ofList (Layout.result.writeFloat (rounded x)) := by
      rw [display, if_pos hx]
      exact if_neg hzero
    refine ⟨rounded x, ?_, hfinite, display_rounded hx⟩
    rw [htext, String.toList_ofList]
    exact readDouble?_writeFloat (.inl rfl) hfinite

/-- Between `4096` and `8192` the seventeen digits of a result lose the last one only: the display shows
sixteen, and a double that is read from them is not the result. -/
theorem display_reread_seventeen_digits :
    let x := (⟨41968187755312165, -13⟩ : Decimal).toFloat false
    Double.isFinite x = true ∧ display x = "4196.818775531217" ∧ rounded x ≠ x
      ∧ (∃ y, readDouble? (display x).toList = some y ∧ Double.isFinite y = true
        ∧ display y = display x)
      ∧ rounded (rounded x) = rounded x := by
  intro x
  have hx : Double.isFinite x = true := by decide +kernel
  exact ⟨hx, by decide +kernel, by decide +kernel, display_reread hx⟩

end Calculator
