import Calculator.Proofs.Double.Bits
import Calculator.Proofs.Double.Rounding
import Mathlib.Algebra.Order.Field.Power
import Mathlib.Tactic.Positivity

/-!
# The values of decimals

* `Decimal.value` is the number that a decimal is, `Decimal.signed` the one with a sign;
* `Decimal.toFloat_eq_iff` says which decimals are read as a given double;
* `Decimal.ReadAs` and `Decimal.Overflows` are what becomes of a decimal without a sign.
-/

namespace Calculator.Decimal

open Double (Rounds)

/-- The number that a decimal is. -/
def value (d : Decimal) : ℚ :=
  d.coefficient * 10 ^ d.exponent

/-- The number that a decimal with a sign is. -/
def signed (negative : Bool) (d : Decimal) : ℚ :=
  if negative then -d.value else d.value

theorem value_nonneg (d : Decimal) : 0 ≤ d.value := by
  rw [value]
  positivity

theorem value_eq_zero_iff {d : Decimal} : d.value = 0 ↔ d.coefficient = 0 := by
  have : (10 : ℚ) ^ d.exponent ≠ 0 := by positivity
  simp [value, this]

theorem cast_tenPow (n : Nat) : (tenPow n : ℚ) = 10 ^ n := by
  rw [tenPow]
  exact_mod_cast rfl

/-- The value as a fraction. -/
theorem value_eq_div (d : Decimal) : d.value = d.numerator / d.denominator := by
  obtain ⟨coefficient, exponent⟩ := d
  rw [value, numerator, denominator]
  push_cast
  rw [cast_tenPow, cast_tenPow]
  cases exponent with
  | ofNat n => simp
  | negSucc n => simp [zpow_negSucc, div_eq_mul_inv]

/-- Moving the point of a decimal by writing more digits. -/
theorem value_mul_pow (c n : Nat) (e : Int) : value ⟨c * 10 ^ n, e⟩ = value ⟨c, n + e⟩ := by
  rw [value, value, zpow_add₀ (by norm_num), zpow_natCast]
  push_cast
  ring

/-- A value with the point at a given place, as a fraction. -/
theorem value_sub (c g n : Nat) :
    value ⟨c, (g : Int) - n⟩ = ((c * tenPow g : Nat) : ℚ) / tenPow n := by
  rw [value, Nat.cast_mul, cast_tenPow, cast_tenPow, mul_div_assoc, zpow_sub₀ (by norm_num),
    zpow_natCast, zpow_natCast]

/-- The rank of the double that a decimal is read as. -/
theorem rounds_nearestRank (d : Decimal) :
    Rounds (nearestRank d.numerator d.denominator) d.value := by
  rw [value_eq_div]
  exact Double.rounds_nearestRank _ d.denominator_pos

theorem nearestRank_eq_iff {d : Decimal} {k : Nat} :
    nearestRank d.numerator d.denominator = k ↔ Rounds k d.value := by
  rw [value_eq_div]
  exact Double.nearestRank_eq_iff d.denominator_pos

/-- A decimal that rounds to a finite rank is read as the double of this rank. -/
theorem toFloat_of_rounds {d : Decimal} {k : Nat} (h : Rounds k d.value)
    (hk : k ≤ Double.infinityRank) (negative : Bool) :
    d.toFloat negative = Double.ofRank negative k := by
  rw [toFloat, nearestRank_eq_iff.mpr h, Nat.min_eq_left hk]

/-- **Reading a decimal.** A finite double is what the numbers that round to its magnitude are read as.
-/
theorem toFloat_eq_iff {x : Float} (hx : Double.isFinite x = true) {d : Decimal} :
    d.toFloat (Double.isNegative x) = x ↔ Rounds (Double.rank x) d.value := by
  have hrank := Double.isFinite_iff.mp hx
  constructor
  · intro h
    have hmin := congrArg Double.rank h
    rw [toFloat, Double.rank_ofRank _ (Nat.min_le_right _ _)] at hmin
    rw [← nearestRank_eq_iff]
    omega
  · intro h
    rw [toFloat_of_rounds h hrank.le, Double.ofRank_rank hrank.le]

/-! ## Decimals without a sign -/

/-- A double is what a decimal is read as: it is finite, has no sign bit, and is the nearest one. -/
structure ReadAs (d : Decimal) (x : Float) : Prop where
  isFinite : Double.isFinite x = true
  isNegative : Double.isNegative x = false
  rounds : Rounds (Double.rank x) d.value

/-- A decimal is too large: it rounds to `2¹⁰²⁴` or to a number beyond. -/
def Overflows (d : Decimal) : Prop :=
  ∃ k, Double.infinityRank ≤ k ∧ Rounds k d.value

theorem ReadAs.toFloat_eq {d : Decimal} {x : Float} (h : d.ReadAs x) : d.toFloat false = x := by
  have hread := (toFloat_eq_iff h.isFinite).mpr h.rounds
  rwa [h.isNegative] at hread

/-- A decimal that is too large is read as no finite double. -/
theorem Overflows.isFinite_toFloat {d : Decimal} (h : d.Overflows) :
    Double.isFinite (d.toFloat false) = false := by
  obtain ⟨k, hk, hrounds⟩ := h
  rw [toFloat, nearestRank_eq_iff.mpr hrounds, Nat.min_eq_right hk, Double.isFinite,
    Double.rank_ofRank _ (Nat.le_refl _)]
  exact decide_eq_false (Nat.lt_irrefl _)

/-- The double of a rank is what the decimals that round to it are read as. -/
theorem readAs_ofRank {d : Decimal} {k : Nat} (hk : k < Double.infinityRank)
    (h : Rounds k d.value) : d.ReadAs (Double.ofRank false k) where
  isFinite := Double.isFinite_ofRank false hk
  isNegative := Double.isNegative_ofRank false hk.le
  rounds := by rwa [Double.rank_ofRank false hk.le]

/-- Every decimal is read as a double, unless it is too large. -/
theorem readAs_or_overflows (d : Decimal) : d.ReadAs (d.toFloat false) ∨ d.Overflows := by
  have hrounds := d.rounds_nearestRank
  rcases Nat.lt_or_ge (nearestRank d.numerator d.denominator) Double.infinityRank with hlt | hge
  · left
    rw [toFloat_of_rounds hrounds hlt.le]
    exact readAs_ofRank hlt hrounds
  · exact .inr ⟨_, hge, hrounds⟩

/-- A decimal below `10²¹` is not too large. -/
theorem readAs_of_lt {d : Decimal} (h : d.value < 10 ^ 21) : d.ReadAs (d.toFloat false) := by
  refine d.readAs_or_overflows.resolve_right ?_
  rintro ⟨k, hk, hrounds⟩
  have hunits : 10 ^ 21 * Double.unity ≤ Double.units (Double.infinityRank - 1) := by decide +kernel
  have hlast : (10 : ℚ) ^ 21 ≤ Double.magnitude (Double.infinityRank - 1) := by
    rw [Double.magnitude, le_div_iff₀ Double.cast_unity_pos]
    exact_mod_cast hunits
  have hbefore := Double.magnitude_lt_upperEnd (Double.infinityRank - 1)
  have hend : Double.upperEnd (Double.infinityRank - 1) ≤ Double.lowerEnd k :=
    Double.upperEnd_le_lowerEnd (Nat.lt_of_lt_of_le (Nat.sub_lt (by decide) Nat.one_pos) hk)
  have hlower := hrounds.lower
  linarith

end Calculator.Decimal
