import Calculator.Display
import Calculator.Proofs.Decimal.Reading
import Mathlib.Algebra.Order.Round
import Mathlib.Data.Rat.Floor

/-!
# The rounding of the display

The display shows the shortest decimal of a result, rounded to twelve places. What it writes is not
this decimal but the shortest one of the double nearest to it, and the two are the same: a result
that is rounded is below `8192`, where the doubles are denser than the multiples of `10⁻¹²`.

* `toPlaces` is the rounding, `roundToPlaces_signed` says that the display does it;
* `exists_rounds_of_le` and `eq_of_rounds` are about the multiples of `10⁻¹²` that round to a double;
* `shortest_of_rounds` says that such a multiple comes out again, if there is only one;
* `rounded_spec` is about the rounded double, from which the text on the display follows.
-/

namespace Calculator

open Double (Rounds magnitude spacing binade unity)

/-! ## The rounding of decimals -/

/-- The multiple of `10⁻¹²` nearest to a number, and of two equally near the larger. -/
def toPlaces (q : ℚ) : ℚ :=
  round (q * 10 ^ displayPlaces) / 10 ^ displayPlaces

/-- A larger number is not rounded to a smaller one. -/
theorem toPlaces_mono : Monotone toPlaces := by
  intro p q h
  have hpow : (0 : ℚ) < 10 ^ displayPlaces := by positivity
  have hscaled : p * 10 ^ displayPlaces + 1 / 2 ≤ q * 10 ^ displayPlaces + 1 / 2 := by gcongr
  have hround : round (p * 10 ^ displayPlaces) ≤ round (q * 10 ^ displayPlaces) := by
    rw [round_eq, round_eq]
    exact Int.floor_mono hscaled
  exact div_le_div_of_nonneg_right (Int.cast_le.mpr hround) hpow.le

/-- A rounded quotient is off by a half at most, and by less on the side that a tie does not go to. -/
theorem roundTie_bounds (up : Bool) (num : Nat) {den : Nat} (hden : 0 < den) :
    (if up then 2 * (roundTie up num den * den) ≤ 2 * num + den
      else 2 * (roundTie up num den * den) < 2 * num + den)
      ∧ if up then 2 * num < 2 * (roundTie up num den * den) + den
        else 2 * num ≤ 2 * (roundTie up num den * den) + den := by
  have hsplit := Nat.div_add_mod' num den
  have hmod := Nat.mod_lt num hden
  by_cases hup : den < 2 * (num % den) ∨ up = true ∧ den = 2 * (num % den)
  · have hround : roundTie up num den = num / den + 1 := if_pos (by simpa using hup)
    rw [hround, Nat.add_mul, Nat.one_mul]
    cases up <;> simp at hup ⊢ <;> omega
  · have hround : roundTie up num den = num / den := if_neg (by simpa using hup)
    rw [hround]
    cases up <;> simp at hup ⊢ <;> omega

/-- Rounding a magnitude, with its ties to the larger or the smaller number, is rounding the number
with its ties to the larger one. -/
theorem round_signed (negative : Bool) (num : Nat) {den : Nat} (hden : 0 < den) :
    round (if negative then -((num : ℚ) / den) else num / den)
      = if negative then -(roundTie (!negative) num den : Int) else roundTie (!negative) num den := by
  have hden' : (0 : ℚ) < den := by exact_mod_cast hden
  have hquotient : (num : ℚ) / den * (2 * den) = 2 * num := by field_simp
  obtain ⟨hlow, hhigh⟩ := roundTie_bounds (!negative) num hden
  generalize roundTie (!negative) num den = t at *
  generalize (num : ℚ) / den = q at *
  -- Rounding is the floor of a half more, and the bounds are those of the floor.
  rw [round_eq, Int.floor_eq_iff]
  cases negative with
  | false =>
    simp only [Bool.not_false, if_true] at hlow hhigh
    have hlow' : 2 * ((t : ℚ) * den) ≤ 2 * num + den := by exact_mod_cast hlow
    have hhigh' : 2 * (num : ℚ) < 2 * (t * den) + den := by exact_mod_cast hhigh
    simp only [Bool.false_eq_true, if_false, Int.cast_natCast]
    constructor <;> nlinarith
  | true =>
    simp only [Bool.not_true, Bool.false_eq_true, if_false] at hlow hhigh
    have hlow' : 2 * ((t : ℚ) * den) < 2 * num + den := by exact_mod_cast hlow
    have hhigh' : 2 * (num : ℚ) ≤ 2 * (t * den) + den := by exact_mod_cast hhigh
    simp only [if_true, Int.cast_neg, Int.cast_natCast]
    constructor <;> nlinarith

/-- A decimal at the places of the display. -/
theorem value_displayPlaces (n : Nat) :
    Decimal.value ⟨n, -displayPlaces⟩ = (n : ℚ) / 10 ^ displayPlaces := by
  rw [Decimal.value, zpow_neg, zpow_natCast, div_eq_mul_inv]

/-- The digits of a decimal that the display has no place for. -/
theorem value_mul_displayPlaces {d : Decimal} (hd : d.exponent < -displayPlaces) :
    d.value * 10 ^ displayPlaces
      = (d.coefficient : ℚ) / tenPow (-(displayPlaces : Int) - d.exponent).toNat := by
  obtain ⟨surplus, hsurplus⟩ : ∃ surplus : Nat, d.exponent = -displayPlaces - surplus :=
    ⟨(-(displayPlaces : Int) - d.exponent).toNat, by omega⟩
  rw [show (-(displayPlaces : Int) - d.exponent).toNat = surplus by omega, Decimal.value, hsurplus,
    zpow_sub₀ (by norm_num), zpow_neg, zpow_natCast, zpow_natCast, Decimal.cast_tenPow]
  field_simp

/-- **The display rounds decimals** to its places. -/
theorem roundToPlaces_signed (negative : Bool) {d : Decimal} (hd : d.exponent < -displayPlaces) :
    (roundToPlaces negative d).signed negative = toPlaces (d.signed negative) := by
  have hshift := value_mul_displayPlaces hd
  rw [roundToPlaces, toPlaces]
  generalize (-(displayPlaces : Int) - d.exponent).toNat = surplus at hshift ⊢
  have hround := round_signed negative d.coefficient (Decimal.tenPow_pos surplus)
  have hscaled : d.signed negative * 10 ^ displayPlaces
      = if negative then -((d.coefficient : ℚ) / tenPow surplus)
        else d.coefficient / tenPow surplus := by
    rw [← hshift, Decimal.signed]
    cases negative <;> simp
  rw [hscaled, hround, Decimal.signed, value_displayPlaces]
  cases negative <;> simp [neg_div]

/-- Rounding does not go over a whole number. -/
theorem roundToPlaces_le (negative : Bool) {d : Decimal} (hd : d.exponent < -displayPlaces) {n : Nat}
    (h : d.value ≤ n) : (roundToPlaces negative d).value ≤ n := by
  have hpow : (0 : ℚ) < 10 ^ displayPlaces := by positivity
  have hshift := value_mul_displayPlaces hd
  rw [roundToPlaces]
  generalize (-(displayPlaces : Int) - d.exponent).toNat = surplus at hshift ⊢
  have hten : (0 : ℚ) < tenPow surplus := by exact_mod_cast Decimal.tenPow_pos surplus
  have hnum : d.coefficient ≤ n * 10 ^ displayPlaces * tenPow surplus := by
    have : (d.coefficient : ℚ) ≤ n * 10 ^ displayPlaces * tenPow surplus := by
      rw [← div_le_iff₀ hten, ← hshift]
      exact mul_le_mul_of_nonneg_right h hpow.le
    exact_mod_cast this
  have hbounds := (roundTie_bounds (!negative) d.coefficient (Decimal.tenPow_pos surplus)).1
  have hround : roundTie (!negative) d.coefficient (tenPow surplus) ≤ n * 10 ^ displayPlaces := by
    generalize roundTie (!negative) d.coefficient (tenPow surplus) = t at hbounds ⊢
    have hle : 2 * (t * tenPow surplus) ≤ 2 * d.coefficient + tenPow surplus := by
      cases negative <;> simp at hbounds <;> omega
    have hlt : 2 * t * tenPow surplus < (2 * (n * 10 ^ displayPlaces) + 2) * tenPow surplus := by
      have := Decimal.tenPow_pos surplus
      rw [Nat.mul_assoc, Nat.add_mul, Nat.mul_assoc 2]
      omega
    have := Nat.lt_of_mul_lt_mul_right hlt
    omega
  rw [value_displayPlaces, div_le_iff₀ hpow]
  exact_mod_cast hround

/-- A multiple of `10⁻¹²` is not changed by rounding. -/
theorem toPlaces_signed_of_eq (negative : Bool) {d : Decimal} {n : Nat}
    (h : d.value = (n : ℚ) / 10 ^ displayPlaces) :
    toPlaces (d.signed negative) = d.signed negative := by
  have hpow : (10 : ℚ) ^ displayPlaces ≠ 0 := by positivity
  rw [toPlaces, Decimal.signed, h]
  cases negative with
  | false =>
    rw [if_neg (by decide), div_mul_cancel₀ _ hpow, round_natCast]
    rfl
  | true =>
    rw [if_pos rfl, neg_mul, div_mul_cancel₀ _ hpow, ← Int.cast_natCast, ← Int.cast_neg, round_intCast,
      Int.cast_neg, neg_div]

/-! ## The spacing of the doubles and of the display -/

/-- The rank of `8192`. Up to it the doubles are denser than the multiples of `10⁻¹²`. -/
def denseRank : Nat :=
  1036 * binade

theorem denseRank_pos : 0 < denseRank := by
  decide

theorem magnitude_denseRank : magnitude denseRank = 8192 := by
  have hunits : Double.units denseRank = 8192 * unity := by decide +kernel
  exact Double.magnitude_of_units hunits

/-- The next double is nearer than some units of the last place. -/
theorem magnitude_succ_lt_iff (k n : Nat) :
    magnitude (k + 1) < magnitude k + n / 10 ^ displayPlaces
      ↔ spacing k * 10 ^ displayPlaces < n * unity := by
  rw [Double.magnitude_succ, add_lt_add_iff_left,
    div_lt_div_iff₀ Double.cast_unity_pos (by positivity)]
  exact_mod_cast Iff.rfl

/-- The next double is farther than some units of the last place. -/
theorem lt_magnitude_succ_iff (k n : Nat) :
    magnitude k + n / 10 ^ displayPlaces < magnitude (k + 1)
      ↔ n * unity < spacing k * 10 ^ displayPlaces := by
  rw [Double.magnitude_succ, add_lt_add_iff_left,
    div_lt_div_iff₀ (by positivity) Double.cast_unity_pos]
  exact_mod_cast Iff.rfl

/-- Below `8192` the next double is nearer than a unit of the last place. -/
theorem magnitude_succ_lt {k : Nat} (h : k < denseRank) :
    magnitude (k + 1) < magnitude k + 1 / 10 ^ displayPlaces := by
  have hlast : spacing (denseRank - 1) * 10 ^ displayPlaces < 1 * unity := by decide +kernel
  have hmono := Double.spacing_mono (Nat.le_sub_one_of_lt h)
  have hnext := (magnitude_succ_lt_iff k 1).mpr ((Nat.mul_le_mul_right _ hmono).trans_lt hlast)
  rwa [Nat.cast_one] at hnext

/-- From `8192` on the next double is farther. -/
theorem lt_magnitude_succ {k : Nat} (h : denseRank ≤ k) :
    magnitude k + 1 / 10 ^ displayPlaces < magnitude (k + 1) := by
  have hfirst : 1 * unity < spacing denseRank * 10 ^ displayPlaces := by decide +kernel
  have hmono := Double.spacing_mono h
  have hnext := (lt_magnitude_succ_iff k 1).mpr (hfirst.trans_le (Nat.mul_le_mul_right _ hmono))
  rwa [Nat.cast_one] at hnext

/-- The double after `8192` is no two units of the last place farther. -/
theorem magnitude_denseRank_succ_lt :
    magnitude (denseRank + 1) < 8192 + 2 / 10 ^ displayPlaces := by
  have hspacing : spacing denseRank * 10 ^ displayPlaces < 2 * unity := by decide +kernel
  have hnext := (magnitude_succ_lt_iff denseRank 2).mpr hspacing
  rwa [magnitude_denseRank, Nat.cast_ofNat] at hnext

/-- **From `8192` on a multiple of `10⁻¹²` rounds to every double.** -/
theorem exists_rounds_of_le {k : Nat} (h : denseRank ≤ k) :
    ∃ m : Nat, 0 < m ∧ Rounds k (m / 10 ^ displayPlaces) := by
  have hpow : (0 : ℚ) < 10 ^ displayPlaces := by positivity
  rcases Nat.eq_or_lt_of_le h with rfl | hlt
  · refine ⟨8192 * 10 ^ displayPlaces, by positivity, ?_⟩
    have hself : ((8192 * 10 ^ displayPlaces : Nat) : ℚ) / 10 ^ displayPlaces
        = magnitude denseRank := by
      rw [magnitude_denseRank]
      push_cast
      field_simp
    rw [hself]
    exact Rounds.magnitude_self denseRank
  · -- The interval is longer than a unit of the last place.
    obtain ⟨j, rfl⟩ : ∃ j, k = j + 1 := ⟨k - 1, by omega⟩
    have hbefore := lt_magnitude_succ (show denseRank ≤ j by omega)
    have hnext := lt_magnitude_succ h
    have hlong : Double.lowerEnd (j + 1) + 1 / 10 ^ displayPlaces < Double.upperEnd (j + 1) := by
      rw [Double.lowerEnd, Double.upperEnd, Nat.add_sub_cancel]
      linarith
    obtain ⟨m, hm, hrounds⟩ := Rounds.exists_mul (k := j + 1) (u := 1 / 10 ^ displayPlaces)
      (by positivity) (by linarith)
    rw [← div_eq_mul_one_div] at hrounds
    exact ⟨m, hm, hrounds⟩

/-- A multiple of `10⁻¹²` that rounds to `8192` is `8192`. -/
theorem eq_of_rounds_denseRank {m : Nat} (h : Rounds denseRank (m / 10 ^ displayPlaces)) :
    m = 8192 * 10 ^ displayPlaces := by
  have hpow : (0 : ℚ) < 10 ^ displayPlaces := by positivity
  have hbefore : magnitude (denseRank - 1 + 1) < magnitude (denseRank - 1) + 1 / 10 ^ displayPlaces :=
    magnitude_succ_lt (Nat.sub_lt denseRank_pos Nat.one_pos)
  rw [Nat.sub_add_cancel denseRank_pos] at hbefore
  have hnext := magnitude_denseRank_succ_lt
  have hlower := h.lower
  have hupper := h.upper
  rw [Double.lowerEnd, magnitude_denseRank] at hlower
  rw [Double.upperEnd, magnitude_denseRank] at hupper
  rw [magnitude_denseRank] at hbefore
  have hone : (1 : ℚ) / 10 ^ displayPlaces * 10 ^ displayPlaces = 1 := by field_simp
  have htwo : (2 : ℚ) / 10 ^ displayPlaces = 2 * (1 / 10 ^ displayPlaces) := by ring
  have hm : (m : ℚ) / 10 ^ displayPlaces * 10 ^ displayPlaces = m := by field_simp
  rw [htwo] at hnext
  generalize (1 : ℚ) / 10 ^ displayPlaces = step at *
  -- Both ends of the interval are less than a unit of the last place from `8192`.
  have hlow : ((8192 * 10 ^ displayPlaces : Nat) : ℚ) < ((m + 1 : Nat) : ℚ) := by
    push_cast
    nlinarith
  have hhigh : (m : ℚ) < ((8192 * 10 ^ displayPlaces + 1 : Nat) : ℚ) := by
    push_cast
    nlinarith
  have hlow' := Nat.cast_lt.mp hlow
  have hhigh' := Nat.cast_lt.mp hhigh
  omega

/-- **Up to `8192` no two multiples of `10⁻¹²` round to one double.** -/
theorem eq_of_rounds {k m n : Nat} (h : k ≤ denseRank) (hm : Rounds k (m / 10 ^ displayPlaces))
    (hn : Rounds k (n / 10 ^ displayPlaces)) : m = n := by
  have hpow : (0 : ℚ) < 10 ^ displayPlaces := by positivity
  rcases Nat.eq_or_lt_of_le h with rfl | hlt
  · rw [eq_of_rounds_denseRank hm, eq_of_rounds_denseRank hn]
  · -- The interval is shorter than a unit of the last place.
    have hbefore : magnitude k < magnitude (k - 1) + 1 / 10 ^ displayPlaces := by
      rcases Nat.eq_zero_or_pos k with rfl | hk
      · exact lt_add_of_pos_right _ (by positivity)
      · obtain ⟨j, rfl⟩ : ∃ j, k = j + 1 := ⟨k - 1, by omega⟩
        exact magnitude_succ_lt (by omega)
    have hnext := magnitude_succ_lt hlt
    have hshort : Double.upperEnd k < Double.lowerEnd k + 1 / 10 ^ displayPlaces := by
      rw [Double.lowerEnd, Double.upperEnd]
      linarith
    rw [div_eq_mul_one_div] at hm hn
    exact hm.eq_of_mul (by linarith) hn

/-! ## The rounded double -/

/-- A decimal that is no finer than the display is a multiple of `10⁻¹²`. -/
theorem exists_eq_of_coarse {d : Decimal} (h : -(displayPlaces : Int) ≤ d.exponent) :
    ∃ n : Nat, d.value = (n : ℚ) / 10 ^ displayPlaces := by
  obtain ⟨c, e⟩ := d
  obtain ⟨surplus, rfl⟩ : ∃ surplus : Nat, e = surplus + -displayPlaces :=
    ⟨(e + displayPlaces).toNat, by simp only at h; omega⟩
  exact ⟨c * 10 ^ surplus, by rw [← value_displayPlaces, Decimal.value_mul_pow]⟩

/-- A double whose shortest decimal has more places than the display is below `8192`. -/
theorem lt_denseRank {k : Nat} (h : (shortest k).exponent < -displayPlaces) : k < denseRank := by
  by_contra hlt
  obtain ⟨m, hm, hrounds⟩ := exists_rounds_of_le (Nat.le_of_not_lt hlt)
  rw [← value_displayPlaces] at hrounds
  have hcoarse : -(displayPlaces : Int) ≤ (shortest k).exponent := shortest_coarsest hm hrounds
  omega

/-- **A multiple of `10⁻¹²` up to `8192` is the shortest decimal of the double that it rounds to.** -/
theorem shortest_of_rounds {k m : Nat} (h : k ≤ denseRank) (hm : Rounds k (m / 10 ^ displayPlaces)) :
    (shortest k).value = m / 10 ^ displayPlaces := by
  rcases Nat.eq_zero_or_pos m with rfl | hpos
  · have hzero : k = 0 := by
      rw [Nat.cast_zero, zero_div] at hm
      exact Rounds.zero_iff.mp hm
    rw [hzero, shortest_zero, Nat.cast_zero, zero_div]
  · rw [← value_displayPlaces] at hm ⊢
    refine shortest_of_unique hpos hm fun n hn => ?_
    rw [value_displayPlaces] at hm hn
    exact eq_of_rounds h hn hm

/-- **The double nearest to a rounded decimal** has it for its shortest decimal. -/
theorem exists_rank_roundToPlaces (negative : Bool) {k : Nat}
    (h : (shortest k).exponent < -displayPlaces) :
    ∃ j ≤ denseRank, Rounds j (roundToPlaces negative (shortest k)).value
      ∧ (shortest j).value = (roundToPlaces negative (shortest k)).value := by
  have hdense := lt_denseRank h
  have hbound : (shortest k).value ≤ (8192 : Nat) := by
    have hend := (shortest_rounds k).upper.trans (Double.upperEnd_le_lowerEnd hdense)
    have hlast := Double.lowerEnd_le_magnitude denseRank
    rw [magnitude_denseRank] at hlast
    exact hend.trans hlast
  have hrounded := roundToPlaces_le negative h hbound
  obtain ⟨m, hm⟩ : ∃ m : Nat, (roundToPlaces negative (shortest k)).value
      = (m : ℚ) / 10 ^ displayPlaces := exists_eq_of_coarse (Int.le_refl _)
  have hrounds := (roundToPlaces negative (shortest k)).rounds_nearestRank
  generalize roundToPlaces negative (shortest k) = d at *
  generalize nearestRank d.numerator d.denominator = j at hrounds
  -- A decimal up to `8192` rounds to a double up to `8192`.
  have hj : j ≤ denseRank := by
    by_contra hlt
    have hend := (Double.upperEnd_le_lowerEnd (not_le.mp hlt)).trans hrounds.lower
    have hlast := Double.magnitude_lt_upperEnd denseRank
    rw [magnitude_denseRank] at hlast
    exact absurd (hlast.trans_le hend) (not_lt.mpr hrounded)
  refine ⟨j, hj, hrounds, ?_⟩
  rw [hm] at hrounds ⊢
  exact shortest_of_rounds hj hrounds

/-- A double that is not kept is rounded to the double nearest to its rounded decimal, which is finite and has
it for its shortest. -/
theorem exists_rounded_eq {x : Float} (hzero : Double.rank x ≠ 0)
    (h : (shortest (Double.rank x)).exponent < -displayPlaces) :
    ∃ j < Double.infinityRank, rounded x = Double.ofRank (Double.isNegative x) j
      ∧ Rounds j (roundToPlaces (Double.isNegative x) (shortest (Double.rank x))).value
      ∧ (shortest j).value
        = (roundToPlaces (Double.isNegative x) (shortest (Double.rank x))).value := by
  obtain ⟨j, hj, hrounds, hvalue⟩ := exists_rank_roundToPlaces (Double.isNegative x) h
  have hfinite : j < Double.infinityRank := hj.trans_lt (by decide)
  have hrounded : rounded x
      = (roundToPlaces (Double.isNegative x) (shortest (Double.rank x))).toFloat
          (Double.isNegative x) := if_neg (by simp [hzero, h])
  exact ⟨j, hfinite, hrounded.trans (Decimal.toFloat_of_rounds hrounds hfinite.le _), hrounds, hvalue⟩

/-- Decimals of one value have one value with a sign. -/
theorem Decimal.signed_congr (negative : Bool) {d e : Decimal} (h : d.value = e.value) :
    d.signed negative = e.signed negative := by
  rw [signed, signed, h]

/-- **The rounded double** is finite and keeps its sign, and its shortest decimal is the rounded
shortest decimal of the result. -/
theorem rounded_spec {x : Float} (hx : Double.isFinite x = true) :
    Double.isFinite (rounded x) = true ∧ Double.isNegative (rounded x) = Double.isNegative x
      ∧ (shortest (Double.rank (rounded x))).signed (Double.isNegative x)
          = toPlaces ((shortest (Double.rank x)).signed (Double.isNegative x)) := by
  by_cases hkept : Double.rank x = 0 ∨ -(displayPlaces : Int) ≤ (shortest (Double.rank x)).exponent
  · -- The result is kept: it is zero, or its shortest decimal is a multiple of the last place.
    have hrounded : rounded x = x := if_pos (by simpa using hkept)
    obtain ⟨n, hn⟩ : ∃ n : Nat, (shortest (Double.rank x)).value = (n : ℚ) / 10 ^ displayPlaces := by
      rcases hkept with hzero | hcoarse
      · exact ⟨0, by rw [hzero, shortest_zero, Nat.cast_zero, zero_div]⟩
      · exact exists_eq_of_coarse hcoarse
    rw [hrounded]
    exact ⟨hx, rfl, (toPlaces_signed_of_eq _ hn).symm⟩
  · obtain ⟨hzero, hfine⟩ := not_or.mp hkept
    have hfine' := Int.not_le.mp hfine
    obtain ⟨j, hj, hrounded, -, hvalue⟩ := exists_rounded_eq hzero hfine'
    rw [hrounded, Double.isNegative_ofRank _ hj.le, Double.rank_ofRank _ hj.le,
      Decimal.signed_congr _ hvalue]
    exact ⟨Double.isFinite_ofRank _ hj, rfl, roundToPlaces_signed _ hfine'⟩

/-- A signed decimal is zero with its magnitude only. -/
theorem Decimal.signed_eq_zero_iff {negative : Bool} {d : Decimal} :
    d.signed negative = 0 ↔ d.value = 0 := by
  cases negative <;> simp [signed]

/-- The shortest decimal of a double is zero only if the double is. -/
theorem shortest_value_eq_zero_iff {k : Nat} : (shortest k).value = 0 ↔ k = 0 := by
  constructor
  · intro h
    have := shortest_rounds k
    rwa [h, Rounds.zero_iff] at this
  · rintro rfl
    exact shortest_zero

/-- **The display shows the rounded shortest decimal.** For a finite result, `shortest` is the shortest
decimal that is read as the result and of these the nearest. What stands on the display is the
multiple of `10⁻¹²` nearest to it, exactly; it is `0` if this is zero, and never the infinity sign. -/
theorem display_eq_toPlaces {x : Float} (hx : Double.isFinite x = true) :
    let shown := toPlaces ((shortest (Double.rank x)).signed (Double.isNegative x))
    IsShortest x (shortest (Double.rank x))
      ∧ (∃ negative d, readSigned? (display x).toList = some (negative, d)
          ∧ d.signed negative = shown)
      ∧ (shown = 0 → display x = "0")
      ∧ display x ≠ "∞" := by
  intro shown
  obtain ⟨hfinite, hsign, hrounded⟩ := rounded_spec hx
  have hshown : (shortest (Double.rank (rounded x))).signed (Double.isNegative x) = shown := hrounded
  by_cases hzero : Double.rank (rounded x) = 0
  · -- Zero is shown without a sign, whatever the sign of the result.
    have hdisplay : display x = "0" := by
      rw [display, if_pos hx]
      exact if_pos hzero
    have hnone : shown = 0 := by
      rw [← hshown, Decimal.signed_eq_zero_iff, shortest_value_eq_zero_iff]
      exact hzero
    rw [hdisplay, hnone]
    refine ⟨shortest_isShortest hx, ⟨false, ⟨0, 0⟩, rfl, by simp [Decimal.signed, Decimal.value]⟩,
      fun _ => rfl, by decide⟩
  · have hdisplay : display x = String.ofList (Layout.result.writeFloat (rounded x)) := by
      rw [display, if_pos hx]
      exact if_neg hzero
    have hsome : shown ≠ 0 := by
      rwa [← hshown, Ne, Decimal.signed_eq_zero_iff, shortest_value_eq_zero_iff]
    obtain ⟨d, hread, hvalue⟩ := readSigned?_writeFloat (l := Layout.result) (.inl rfl) hfinite
    rw [hsign] at hread
    refine ⟨shortest_isShortest hx, ⟨Double.isNegative x, d, ?_, ?_⟩, fun h => absurd h hsome, ?_⟩
    · rw [hdisplay, String.toList_ofList]
      exact hread
    · rw [Decimal.signed_congr _ hvalue, hshown]
    · intro hinfinity
      have htext : Layout.result.writeFloat (rounded x) = ['∞'] := by
        rw [hdisplay] at hinfinity
        simpa using congrArg String.toList hinfinity
      rw [htext] at hread
      exact absurd hread (by simp [readSigned?, readScaled?, readFixed?, readNatural?])

/-- Halfway between two multiples the larger is shown, which is nearer to zero for a negative result. -/
theorem display_negative_tie :
    let x := (⟨25, -13⟩ : Decimal).toFloat true
    let shown := toPlaces ((shortest (Double.rank x)).signed (Double.isNegative x))
    Double.isFinite x = true ∧ display x = "-2e-12"
      ∧ IsShortest x (shortest (Double.rank x))
      ∧ (∃ negative d, readSigned? (display x).toList = some (negative, d)
          ∧ d.signed negative = shown)
      ∧ (shown = 0 → display x = "0")
      ∧ display x ≠ "∞" := by
  intro x shown
  have hx : Double.isFinite x = true := by decide +kernel
  have htext : display x = "-2e-12" := by decide +kernel
  exact ⟨hx, htext, display_eq_toPlaces hx⟩

end Calculator
