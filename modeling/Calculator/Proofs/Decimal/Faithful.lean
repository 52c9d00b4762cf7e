import Calculator.Proofs.Decimal.Canonical
import Mathlib.Data.List.DropRight

/-!
# Decimals that doubles keep

A decimal that is read as a double is not always its shortest decimal. It is if it has no more than
fifteen digits, which is less than the doubles tell apart, or if it is a whole number up to `2⁵³`, which
is a double itself.

* `shortest_of_few` is about few digits, `shortest_of_whole` about whole numbers;
* `significantDigits` counts the digits of a text;
* `shortest_of_plain` is about decimals in full.
-/

namespace Calculator

open Double (Rounds magnitude spacing binade unity lowerEnd upperEnd)

/-! ## Few digits -/

/-- The interval around a double is no longer than the step to the next double. -/
theorem upperEnd_sub_lowerEnd_le (k : Nat) : upperEnd k - lowerEnd k ≤ (spacing k : ℚ) / unity := by
  have hunity := Double.cast_unity_pos
  have hnext := Double.magnitude_succ k
  rw [upperEnd, lowerEnd]
  cases k with
  | zero =>
    have hstep : (0 : ℚ) ≤ (spacing 0 : ℚ) / unity := by positivity
    rw [Double.magnitude_zero] at hnext ⊢
    linarith
  | succ k =>
    have hbefore := Double.magnitude_succ k
    have hmono : (spacing k : ℚ) / unity ≤ (spacing (k + 1) : ℚ) / unity :=
      div_le_div_of_nonneg_right (Nat.cast_le.mpr (Double.spacing_mono (Nat.le_succ k))) hunity.le
    rw [Nat.add_sub_cancel]
    linarith

/-- From the second binade on, a number that rounds to a double is many steps large. -/
theorem spacing_le_of_rounds {k : Nat} {q : ℚ} (hk : binade ≤ k) (h : Rounds k q) :
    (2 ^ 52 - 1) * ((spacing k : ℚ) / unity) ≤ q := by
  have hunity := Double.cast_unity_pos
  have hlarge : (2 ^ 52 : ℚ) * ((spacing k : ℚ) / unity) ≤ magnitude k := by
    have hunits : ((binade * spacing k : Nat) : ℚ) ≤ Double.units k :=
      Nat.cast_le.mpr (Double.binade_mul_spacing_le hk)
    rw [Nat.cast_mul, show binade = 2 ^ 52 from rfl, Nat.cast_pow] at hunits
    rw [magnitude, ← mul_div_assoc]
    exact div_le_div_of_nonneg_right hunits hunity.le
  have hshort := upperEnd_sub_lowerEnd_le k
  have hself := Double.magnitude_lt_upperEnd k
  have hlower := h.lower
  linarith

/-- **A decimal of fifteen digits** is the shortest of the double that it rounds to, but for the
smallest doubles. -/
theorem shortest_of_few {k : Nat} {d : Decimal} (hk : binade ≤ k) (hd : 0 < d.coefficient)
    (hfew : d.coefficient < 10 ^ 15) (h : Rounds k d.value) : (shortest k).value = d.value := by
  have hplace : (0 : ℚ) < 10 ^ d.exponent := by positivity
  have hfew' : (d.coefficient : ℚ) < 10 ^ 15 := by exact_mod_cast hfew
  have hlarge := spacing_le_of_rounds hk h
  have hshort := upperEnd_sub_lowerEnd_le k
  refine shortest_of_unique hd h fun n hn => ?_
  rw [Decimal.value] at h hn hlarge
  simp only at hn
  -- Some `2⁵²` steps are less than `10¹⁵` units of the last place.
  have hdigits : (d.coefficient : ℚ) * 10 ^ d.exponent < 10 ^ 15 * 10 ^ d.exponent :=
    mul_lt_mul_of_pos_right hfew' hplace
  exact hn.eq_of_mul (by linarith) h

/-- The smallest doubles are far below `10⁻⁶`. -/
theorem binade_le_of_rounds {k : Nat} {q : ℚ} (h : Rounds k q) (hq : (10 : ℚ) ^ (-6 : Int) ≤ q) :
    binade ≤ k := by
  by_contra hlt
  have hunits : Double.units binade * 10 ^ 6 < unity := by decide +kernel
  have hsmall : magnitude binade < 10 ^ (-6 : Int) := by
    rw [magnitude, div_lt_iff₀ Double.cast_unity_pos, zpow_neg, inv_mul_eq_div, lt_div_iff₀ (by positivity)]
    exact_mod_cast hunits
  have hend := Double.upperEnd_le_lowerEnd (not_le.mp hlt)
  have hself := Double.lowerEnd_le_magnitude binade
  have hupper := h.upper
  linarith

/-! ## Whole numbers -/

/-- The rank of `2⁵³`. Up to it every whole number is a double. -/
def wholeRank : Nat :=
  1076 * binade

theorem magnitude_wholeRank : magnitude wholeRank = (2 ^ 53 : Nat) := by
  have hunits : Double.units wholeRank = 2 ^ 53 * unity := by decide +kernel
  exact Double.magnitude_of_units hunits

/-- A whole number with its bits moved to the left, as far as a double has place for them. -/
theorem exists_mul_two_pow {n : Nat} (hpos : 0 < n) (hn : n ≤ 2 ^ 53) :
    ∃ j ≤ 52, binade ≤ n * 2 ^ j ∧ n * 2 ^ j ≤ 2 * binade := by
  have hbinade : binade = 2 ^ 52 := rfl
  have hlow := Nat.log2_self_le hpos.ne'
  have hhigh := @Nat.lt_log2_self n
  rcases Nat.lt_or_ge 52 n.log2 with hlarge | hsmall
  · have hself : 2 ^ 53 ≤ 2 ^ n.log2 := Nat.pow_le_pow_right (by decide) hlarge
    exact ⟨0, by omega, by omega, by omega⟩
  · obtain ⟨j, hj⟩ : ∃ j, n.log2 + j = 52 := ⟨52 - n.log2, by omega⟩
    have hlow' := Nat.mul_le_mul_right (2 ^ j) hlow
    have hhigh' := Nat.mul_lt_mul_of_pos_right hhigh (Nat.two_pow_pos j)
    rw [← Nat.pow_add, hj] at hlow'
    rw [← Nat.pow_add, show n.log2 + 1 + j = 53 by omega] at hhigh'
    exact ⟨j, by omega, by omega, by omega⟩

/-- **A whole number up to `2⁵³` is a double.** -/
theorem exists_magnitude_eq {n : Nat} (hn : n ≤ 2 ^ 53) : ∃ k, magnitude k = n := by
  rcases Nat.eq_zero_or_pos n with rfl | hpos
  · exact ⟨0, by simp⟩
  obtain ⟨j, hj, hlow, hhigh⟩ := exists_mul_two_pow hpos hn
  refine ⟨(1074 - j) * binade + n * 2 ^ j, Double.magnitude_of_units ?_⟩
  rw [Double.units_mul_add (.inr hlow) hhigh, Nat.mul_assoc, ← Nat.pow_add, unity, Nat.one_shiftLeft,
    show j + (1074 - j) = 1074 by omega]

/-- A whole number that rounds to the double of a smaller one than `2⁵³` is no larger than that. -/
theorem le_of_rounds_whole {k m n : Nat} (hn : n < 2 ^ 53) (hk : magnitude k = n) (h : Rounds k m) :
    m ≤ 2 ^ 53 := by
  have hless : magnitude k < magnitude wholeRank := by
    rw [hk, magnitude_wholeRank]
    exact Nat.cast_lt.mpr hn
  have hend := Double.upperEnd_le_lowerEnd (Double.magnitude_strictMono.lt_iff_lt.mp hless)
  have hself := Double.lowerEnd_le_magnitude wholeRank
  rw [magnitude_wholeRank] at hself
  exact Nat.cast_le.mp (h.upper.trans (hend.trans hself))

/-- **A whole number up to `2⁵³`** is the shortest decimal of the double that it is. -/
theorem shortest_of_whole {k n : Nat} (hn : n ≤ 2 ^ 53) (h : Rounds k n) :
    (shortest k).value = n := by
  have hvalue (m : Nat) : Decimal.value ⟨m, 0⟩ = m := by simp [Decimal.value]
  have hself {j m : Nat} (hj : magnitude j = m) : Rounds j m := by
    rw [← hj]
    exact Rounds.magnitude_self j
  rcases Nat.eq_zero_or_pos n with rfl | hpos
  · rw [Nat.cast_zero, Rounds.zero_iff] at h
    rw [h, shortest_zero, Nat.cast_zero]
  rcases Nat.eq_or_lt_of_le hn with rfl | hlt
  · -- The next whole number rounds to `2⁵³` too, but it is farther.
    obtain rfl := (hself magnitude_wholeRank).unique h
    have hshortest : shortest wholeRank = ⟨2 ^ 53, 0⟩ := by decide +kernel
    rw [hshortest, hvalue]
  · -- Any other whole number that could be taken for it is another double.
    obtain ⟨j, hj⟩ := exists_magnitude_eq hn
    obtain rfl := (hself hj).unique h
    rw [← hvalue n] at h ⊢
    refine shortest_of_unique hpos h fun m hm => ?_
    rw [hvalue] at hm
    obtain ⟨i, hi⟩ := exists_magnitude_eq (le_of_rounds_whole hlt hj hm)
    obtain rfl := (hself hi).unique hm
    exact Nat.cast_injective (hi.symm.trans hj)

/-! ## The digits of a text -/

/-- How many significant digits a text has: those from the first to the last that is no zero. -/
def significantDigits (cs : List Char) : Nat :=
  (((cs.filter Char.isDigit).dropWhile (· == '0')).rdropWhile (· == '0')).length

/-- A text behind the zeros that it starts with. -/
theorem exists_zeros_append (cs : List Char) :
    ∃ n, cs = List.replicate n '0' ++ cs.dropWhile (· == '0') := by
  have hzeros : ∀ c ∈ cs.takeWhile (· == '0'), c = '0' := by
    intro c hc
    have hzero := List.mem_takeWhile_imp hc
    exact beq_iff_eq.mp hzero
  refine ⟨(cs.takeWhile (· == '0')).length, ?_⟩
  rw [← List.eq_replicate_of_mem hzeros, List.takeWhile_append_dropWhile]

/-- A text before the zeros that it ends in. -/
theorem exists_append_zeros (cs : List Char) :
    ∃ n, cs = cs.rdropWhile (· == '0') ++ List.replicate n '0' := by
  obtain ⟨n, hn⟩ := exists_zeros_append cs.reverse
  refine ⟨n, List.reverse_injective ?_⟩
  rw [List.rdropWhile, List.reverse_append, List.reverse_reverse, List.reverse_replicate]
  exact hn

/-- What the digits of a text spell is a number with no more digits than count, and zeros. -/
theorem exists_significant (cs : List Char) :
    ∃ c n, Nat.ofDigitChars 10 (cs.filter Char.isDigit) 0 = c * 10 ^ n
      ∧ c < 10 ^ significantDigits cs := by
  have hdigits : ∀ c ∈ cs.filter Char.isDigit, c.isDigit = true := fun c hc => (List.mem_filter.mp hc).2
  rw [significantDigits]
  generalize cs.filter Char.isDigit = digits at hdigits ⊢
  obtain ⟨before, hbefore⟩ := exists_zeros_append digits
  generalize digits.dropWhile (· == '0') = counting at hbefore ⊢
  obtain ⟨behind, hbehind⟩ := exists_append_zeros counting
  generalize counting.rdropWhile (· == '0') = core at hbehind ⊢
  have hcore : ∀ c ∈ core, c.isDigit = true := fun c hc => hdigits c (by simp [hbefore, hbehind, hc])
  refine ⟨Nat.ofDigitChars 10 core 0, behind, ?_, ofDigitChars_lt hcore⟩
  rw [hbefore, hbehind, Nat.ofDigitChars_append, Nat.ofDigitChars_append,
    Nat.ofDigitChars_replicate_zero, Nat.ofDigitChars_replicate_zero, Nat.mul_zero, Nat.mul_comm]

/-- The coefficient of a decimal in full is what its digits spell. -/
theorem Plain.ofDigitChars_filter {cs : List Char} {d : Decimal} (h : Plain cs d) :
    Nat.ofDigitChars 10 (cs.filter Char.isDigit) 0 = d.coefficient := by
  cases h with
  | whole hdigits => rw [List.filter_eq_self.mpr hdigits.isDigit]
  | point hdigits _ hplaces _ =>
    rw [List.filter_append, List.filter_cons_of_neg (by decide), List.filter_eq_self.mpr hdigits.isDigit,
      List.filter_eq_self.mpr hplaces]

/-- **A decimal in full that a double keeps.** It has no more than fifteen significant digits and is
zero or not below `10⁻⁶`, or it is a whole number up to `2⁵³`. -/
theorem shortest_of_plain {k : Nat} {cs : List Char} {d : Decimal} (hd : Plain cs d)
    (hlow : d.value = 0 ∨ (10 : ℚ) ^ (-6 : Int) ≤ d.value)
    (hdigits : significantDigits cs ≤ 15 ∨ ∃ n : Nat, n ≤ 2 ^ 53 ∧ d.value = n)
    (h : Rounds k d.value) : (shortest k).value = d.value := by
  rcases hdigits with hfew | ⟨n, hn, hwhole⟩
  · rcases hlow with hzero | hlow
    · rw [hzero, Rounds.zero_iff] at h
      rw [hzero, h, shortest_zero]
    · obtain ⟨c, n, hcoefficient, hlt⟩ := exists_significant cs
      rw [hd.ofDigitChars_filter] at hcoefficient
      have hvalue : d.value = Decimal.value ⟨c, n + d.exponent⟩ := by
        rw [← Decimal.value_mul_pow, ← hcoefficient]
      have hk := binade_le_of_rounds h hlow
      rw [hvalue] at h ⊢
      have hpos := coefficient_pos_of_rounds ((show 0 < binade by decide).trans_le hk) h
      exact shortest_of_few hk hpos (hlt.trans_le (Nat.pow_le_pow_right (by decide) hfew)) h
  · rw [hwhole] at h ⊢
    exact shortest_of_whole hn h

end Calculator
