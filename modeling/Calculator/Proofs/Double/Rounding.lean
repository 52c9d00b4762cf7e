import Calculator.Decimal.Nearest
import Calculator.Proofs.Double.Units
import Mathlib.Algebra.Order.Field.Rat
import Mathlib.Data.Rat.Floor
import Mathlib.Tactic.FieldSimp
import Mathlib.Tactic.Linarith

/-!
# Rounding to doubles

The numbers that round to a double are those between the middles to its two neighbours, with the
middles if its rank is even.

* `magnitude k` is the number of rank `k`, `lowerEnd k` and `upperEnd k` are the ends of its interval;
* `Rounds k q` says that `q` rounds to rank `k`, and `Rounds.unique` that it rounds to one rank only;
* `nearestRank_eq_iff` is the correctness of `nearestRank`.
-/

namespace Calculator.Double

/-- The number one, in units of `2⁻¹⁰⁷⁴`. -/
def unity : Nat :=
  1 <<< 1074

theorem one_shiftLeft_pos (places : Nat) : 0 < 1 <<< places := by
  rw [Nat.one_shiftLeft]
  exact Nat.two_pow_pos places

theorem unity_pos : 0 < unity :=
  one_shiftLeft_pos 1074

theorem cast_unity_pos : (0 : ℚ) < unity :=
  Nat.cast_pos.mpr unity_pos

theorem shiftLeft_eq_mul (n places : Nat) : n <<< places = n * (1 <<< places) := by
  rw [Nat.shiftLeft_eq, Nat.one_shiftLeft]

/-- The number of rank `k`. -/
def magnitude (k : Nat) : ℚ :=
  units k / unity

/-- The middle between the number of rank `k` and the one before it. -/
def lowerEnd (k : Nat) : ℚ :=
  (magnitude (k - 1) + magnitude k) / 2

/-- The middle between the number of rank `k` and the next. -/
def upperEnd (k : Nat) : ℚ :=
  (magnitude k + magnitude (k + 1)) / 2

/-- A number rounds to rank `k`: no double is nearer, and in the middle between two the even rank is
taken. -/
structure Rounds (k : Nat) (q : ℚ) : Prop where
  lower : lowerEnd k ≤ q
  upper : q ≤ upperEnd k
  odd : k % 2 = 1 → lowerEnd k < q ∧ q < upperEnd k

/-! ## The row of intervals -/

theorem magnitude_strictMono : StrictMono magnitude := by
  intro j k h
  have hunits : (units j : ℚ) < units k := by exact_mod_cast units_strictMono h
  exact div_lt_div_of_pos_right hunits cast_unity_pos

@[simp] theorem magnitude_zero : magnitude 0 = 0 := by
  simp [magnitude]

/-- The magnitude of a rank that counts a whole number. -/
theorem magnitude_of_units {k n : Nat} (h : units k = n * unity) : magnitude k = n := by
  rw [magnitude, h, Nat.cast_mul, mul_div_assoc, div_self cast_unity_pos.ne', mul_one]

/-- A magnitude by the one before it. -/
theorem magnitude_succ (k : Nat) : magnitude (k + 1) = magnitude k + (spacing k : ℚ) / unity := by
  rw [magnitude, magnitude, units_succ, Nat.cast_add, add_div]

@[simp] theorem lowerEnd_zero : lowerEnd 0 = 0 := by
  simp [lowerEnd]

/-- Each interval starts where the one before it ends. -/
@[simp] theorem lowerEnd_succ (k : Nat) : lowerEnd (k + 1) = upperEnd k := rfl

theorem lowerEnd_le_magnitude (k : Nat) : lowerEnd k ≤ magnitude k := by
  have := magnitude_strictMono.monotone (Nat.sub_le k 1)
  rw [lowerEnd]
  linarith

theorem magnitude_lt_upperEnd (k : Nat) : magnitude k < upperEnd k := by
  have := magnitude_strictMono (Nat.lt_succ_self k)
  rw [upperEnd]
  linarith

theorem lowerEnd_strictMono : StrictMono lowerEnd := by
  apply strictMono_nat_of_lt_succ
  intro k
  rw [lowerEnd_succ]
  exact (lowerEnd_le_magnitude k).trans_lt (magnitude_lt_upperEnd k)

theorem lowerEnd_nonneg (k : Nat) : 0 ≤ lowerEnd k := by
  rw [← lowerEnd_zero]
  exact lowerEnd_strictMono.monotone (Nat.zero_le k)

/-- The numbers that round to a double are less than `10¹⁶` times as large as their interval is long. -/
theorem upperEnd_lt_mul {k : Nat} (hk : 0 < k) : upperEnd k < 10 ^ 16 * (upperEnd k - lowerEnd k) := by
  have hmono : units (k - 1) ≤ units (k + 1) := units_strictMono.monotone (by omega)
  have hunits : (units k + units (k + 1) : ℚ) < 10 ^ 16 * (units (k + 1) - units (k - 1)) := by
    rw [← Nat.cast_sub hmono]
    exact_mod_cast units_add_units_lt hk
  have hscaled := div_lt_div_of_pos_right hunits cast_unity_pos
  rw [add_div, mul_div_assoc, sub_div] at hscaled
  rw [upperEnd, lowerEnd, magnitude, magnitude, magnitude]
  linarith

/-- An interval ends where a later one starts, or before. -/
theorem upperEnd_le_lowerEnd {j k : Nat} (h : j < k) : upperEnd j ≤ lowerEnd k := by
  rw [← lowerEnd_succ]
  exact lowerEnd_strictMono.monotone h

/-! ## Rounding -/

namespace Rounds

variable {j k : Nat} {p q r : ℚ}

/-- A double rounds to itself. -/
theorem magnitude_self (k : Nat) : Rounds k (magnitude k) := by
  refine ⟨lowerEnd_le_magnitude k, (magnitude_lt_upperEnd k).le, fun hodd => ⟨?_, ?_⟩⟩
  · have := magnitude_strictMono (show k - 1 < k by omega)
    rw [lowerEnd]
    linarith
  · exact magnitude_lt_upperEnd k

/-- What lies between two numbers that round to a double rounds to it too. -/
theorem between (hp : Rounds k p) (hr : Rounds k r) (hpq : p ≤ q) (hqr : q ≤ r) : Rounds k q where
  lower := hp.lower.trans hpq
  upper := hqr.trans hr.upper
  odd hodd := ⟨(hp.odd hodd).1.trans_le hpq, hqr.trans_lt (hr.odd hodd).2⟩

/-- What rounds to two ranks in a row would be the middle between them, and one of them is odd. -/
theorem not_lt (hj : Rounds j q) (hk : Rounds k q) : ¬ j < k := by
  intro h
  have hends := upperEnd_le_lowerEnd h
  have hupper := hj.upper
  have hlower := hk.lower
  -- The intervals touch, so that the ranks are neighbours.
  have heq : lowerEnd (j + 1) = lowerEnd k := by
    rw [lowerEnd_succ]
    linarith
  obtain rfl : j + 1 = k := lowerEnd_strictMono.injective heq
  rcases Nat.mod_two_eq_zero_or_one j with heven | hodd
  · have := (hk.odd (by omega)).1
    rw [lowerEnd_succ] at this
    linarith
  · have := (hj.odd hodd).2
    rw [← lowerEnd_succ] at this
    linarith

/-- **A number rounds to one rank only.** -/
theorem unique (hj : Rounds j q) (hk : Rounds k q) : j = k :=
  Nat.le_antisymm (Nat.not_lt.mp (hk.not_lt hj)) (Nat.not_lt.mp (hj.not_lt hk))

/-- Of two numbers the one that rounds to the smaller rank is the smaller. -/
theorem lt_of_lt (hj : Rounds j p) (hk : Rounds k q) (h : j < k) : p < q := by
  have hle : p ≤ q := hj.upper.trans ((upperEnd_le_lowerEnd h).trans hk.lower)
  refine lt_of_le_of_ne hle ?_
  rintro rfl
  exact hj.not_lt hk h

/-- Numbers that are so far apart that the interval has no place for two of them. -/
theorem eq_of_mul {m n : Nat} {u : ℚ} (hshort : upperEnd k - lowerEnd k < u)
    (hm : Rounds k (m * u)) (hn : Rounds k (n * u)) : m = n := by
  have hends := (lowerEnd_le_magnitude k).trans (magnitude_lt_upperEnd k).le
  have hnot {m n : Nat} (hm : Rounds k (m * u)) (hn : Rounds k (n * u)) : ¬ m < n := by
    intro hless
    have hstep : ((m + 1 : Nat) : ℚ) * u ≤ n * u :=
      mul_le_mul_of_nonneg_right (Nat.cast_le.mpr hless) (by linarith)
    have := hm.lower
    have := hn.upper
    push_cast at hstep
    linarith
  exact Nat.le_antisymm (Nat.not_lt.mp (hnot hn hm)) (Nat.not_lt.mp (hnot hm hn))

/-- Where the interval is longer than a step, a multiple of the step rounds to the double. -/
theorem exists_mul {u : ℚ} (hu : 0 < u) (hlong : u < upperEnd k - lowerEnd k) :
    ∃ m : Nat, 0 < m ∧ Rounds k (m * u) := by
  have hfloor := Nat.lt_floor_add_one (lowerEnd k / u)
  have hfloor' := Nat.floor_le (div_nonneg (lowerEnd_nonneg k) hu.le)
  generalize ⌊lowerEnd k / u⌋₊ = n at hfloor hfloor'
  rw [div_lt_iff₀ hu] at hfloor
  rw [le_div_iff₀ hu] at hfloor'
  -- The first multiple above the lower end is below the upper one.
  have hleft : lowerEnd k < ((n + 1 : Nat) : ℚ) * u := by
    push_cast
    exact hfloor
  have hright : ((n + 1 : Nat) : ℚ) * u < upperEnd k := by
    push_cast
    linarith
  exact ⟨n + 1, Nat.succ_pos n, hleft.le, hright.le, fun _ => ⟨hleft, hright⟩⟩

/-- Zero rounds to no other double. -/
theorem zero_iff : Rounds k 0 ↔ k = 0 := by
  have hzero : Rounds 0 0 := by simpa using magnitude_self 0
  constructor
  · intro h
    exact h.unique hzero
  · rintro rfl
    exact hzero

end Rounds

/-- Rounding of a fraction, without fractions. -/
theorem rounds_div_iff {k num den : Nat} (hden : 0 < den) :
    Rounds k (num / den)
      ↔ (units (k - 1) + units k) * den ≤ 2 * (num * unity)
        ∧ 2 * (num * unity) ≤ (units k + units (k + 1)) * den
        ∧ (k % 2 = 1 → (units (k - 1) + units k) * den < 2 * (num * unity)
            ∧ 2 * (num * unity) < (units k + units (k + 1)) * den) := by
  -- Ends and fraction have positive denominators, which are multiplied out.
  have hunity : (0 : ℚ) < 2 * unity := by exact_mod_cast Nat.mul_pos (by decide) unity_pos
  have hden' : (0 : ℚ) < den := by exact_mod_cast hden
  have hend (j l : Nat) :
      (magnitude j + magnitude l) / 2 = ((units j + units l : ℕ) : ℚ) / (2 * unity) := by
    rw [magnitude, magnitude]
    push_cast
    field_simp
  have hswap : ((2 * (num * unity) : ℕ) : ℚ) = num * (2 * unity) := by
    push_cast
    ring
  have hle (a : Nat) : (a : ℚ) / (2 * unity) ≤ num / den ↔ a * den ≤ 2 * (num * unity) := by
    rw [div_le_div_iff₀ hunity hden', ← hswap]
    exact_mod_cast Iff.rfl
  have hlt (a : Nat) : (a : ℚ) / (2 * unity) < num / den ↔ a * den < 2 * (num * unity) := by
    rw [div_lt_div_iff₀ hunity hden', ← hswap]
    exact_mod_cast Iff.rfl
  have hge (a : Nat) : (num : ℚ) / den ≤ a / (2 * unity) ↔ 2 * (num * unity) ≤ a * den := by
    rw [div_le_div_iff₀ hden' hunity, ← hswap]
    exact_mod_cast Iff.rfl
  have hgt (a : Nat) : (num : ℚ) / den < a / (2 * unity) ↔ 2 * (num * unity) < a * den := by
    rw [div_lt_div_iff₀ hden' hunity, ← hswap]
    exact_mod_cast Iff.rfl
  constructor
  · rintro ⟨hlower, hupper, hodd⟩
    rw [lowerEnd, hend] at hlower hodd
    rw [upperEnd, hend] at hupper hodd
    rw [hlt, hgt] at hodd
    exact ⟨(hle _).mp hlower, (hge _).mp hupper, hodd⟩
  · rintro ⟨hlower, hupper, hodd⟩
    rw [← hle, ← hend] at hlower
    rw [← hge, ← hend] at hupper
    rw [← hlt, ← hgt, ← hend, ← hend] at hodd
    exact ⟨hlower, hupper, hodd⟩

/-! ## The nearest double -/

/-- A rounded quotient is off by a half at most, and by less if it is odd. -/
theorem halfEven_bounds (num : Nat) {den : Nat} (hden : 0 < den) :
    2 * (halfEven num den * den) ≤ 2 * num + den ∧ 2 * num ≤ 2 * (halfEven num den * den) + den
      ∧ (halfEven num den % 2 = 1 → 2 * (halfEven num den * den) < 2 * num + den
          ∧ 2 * num < 2 * (halfEven num den * den) + den) := by
  have hsplit := Nat.div_add_mod' num den
  have hmod := Nat.mod_lt num hden
  simp only [halfEven]
  split
  case isTrue h => omega
  case isFalse h =>
    rw [Nat.add_mul, Nat.one_mul]
    omega

/-- The quotient that `nearestRank` rounds is a place in its binade. -/
theorem nearestRank_place (num : Nat) {den : Nat} (hden : 0 < den) :
    let doublings := (num / den).log2 - 52
    (doublings = 0 ∨ binade * (den * 2 ^ doublings) ≤ num)
      ∧ num < 2 * binade * (den * 2 ^ doublings) := by
  intro doublings
  have hbinade : binade = 2 ^ 52 := rfl
  -- The logarithm of the whole quotient is 52 more than the doublings, unless there are none.
  constructor
  · by_cases hzero : doublings = 0
    · exact .inl hzero
    · right
      have hquotient : num / den ≠ 0 := by
        intro h
        simp [doublings, h] at hzero
      have hlog : 2 ^ (52 + doublings) ≤ num / den :=
        (Nat.le_log2 hquotient).mp (by omega)
      calc binade * (den * 2 ^ doublings) = 2 ^ (52 + doublings) * den := by
            rw [hbinade, Nat.pow_add]
            ring
        _ ≤ num := (Nat.le_div_iff_mul_le hden).mp hlog
  · have hlog : num / den < 2 ^ (53 + doublings) :=
      Nat.lt_log2_self.trans_le (Nat.pow_le_pow_right (by decide) (by omega))
    calc num < 2 ^ (53 + doublings) * den := (Nat.div_lt_iff_lt_mul hden).mp hlog
      _ = 2 * binade * (den * 2 ^ doublings) := by
            rw [hbinade, Nat.pow_add]
            ring

/-- A quotient that falls in a binade is rounded to a place in it, or to the first of the next. -/
theorem halfEven_place {n step e : Nat} (hstep : 0 < step) (hlow : e = 0 ∨ binade * step ≤ n)
    (hhigh : n < 2 * binade * step) :
    (e = 0 ∨ binade ≤ halfEven n step) ∧ halfEven n step ≤ 2 * binade := by
  obtain ⟨hlower, hupper, -⟩ := halfEven_bounds n hstep
  generalize halfEven n step = h at *
  constructor
  · refine hlow.imp_right fun hn => ?_
    have : 2 * binade * step < (2 * h + 1 + 1) * step := by nlinarith
    have := Nat.lt_of_mul_lt_mul_right this
    omega
  · have : 2 * h * step < (2 * (2 * binade) + 1) * step := by nlinarith
    have := Nat.lt_of_mul_lt_mul_right this
    omega

/-- A quotient rounded in its binade gives the rank that the fraction rounds to. -/
theorem rounds_mul_add {num den e : Nat} (hden : 0 < den)
    (hlow : e = 0 ∨ binade * (den * 2 ^ e) ≤ num * unity)
    (hhigh : num * unity < 2 * binade * (den * 2 ^ e)) :
    Rounds (e * binade + halfEven (num * unity) (den * 2 ^ e)) (num / den) := by
  rw [rounds_div_iff hden]
  generalize num * unity = n at *
  have hstep : 0 < den * 2 ^ e := Nat.mul_pos hden (Nat.two_pow_pos e)
  have hcomm : den * 2 ^ e = 2 ^ e * den := Nat.mul_comm _ _
  obtain ⟨hlower, hupper, hodd⟩ := halfEven_bounds n hstep
  obtain ⟨hplace, hlast⟩ := halfEven_place hstep hlow hhigh
  generalize halfEven n (den * 2 ^ e) = h at *
  have hself : units (e * binade + h) * den = h * (den * 2 ^ e) := by
    rw [units_mul_add hplace hlast, hcomm, Nat.mul_assoc]
  have hparity : (e * binade + h) % 2 = h % 2 := by
    rw [show e * binade = 2 * (e * 2 ^ 51) by rw [show binade = 2 * 2 ^ 51 from rfl]; ring]
    omega
  -- The next double is a step farther at least.
  have hnext : h * (den * 2 ^ e) + den * 2 ^ e ≤ units (e * binade + h + 1) * den := by
    rw [units_succ, Nat.add_mul, hself, hcomm]
    exact Nat.add_le_add_left (Nat.mul_le_mul_right den (two_pow_le_spacing hplace)) _
  rw [Nat.add_mul, Nat.add_mul, hself, hparity]
  rcases Nat.eq_zero_or_pos h with hzero | hpos
  · -- Nothing is before zero.
    have hbinade : 0 < binade := by decide
    have he : e = 0 := hplace.resolve_right (by omega)
    have hbefore : units (e * binade + h - 1) * den = 0 := by
      rw [he, hzero, Nat.zero_mul, Nat.zero_add, units_zero, Nat.zero_mul]
    have hnone : h * (den * 2 ^ e) = 0 := by rw [hzero, Nat.zero_mul]
    exact ⟨by omega, by omega, fun h => by omega⟩
  by_cases hinner : e = 0 ∨ binade < h
  · -- The one before is a step nearer.
    have hbefore : units (e * binade + h - 1) * den + den * 2 ^ e = h * (den * 2 ^ e) := by
      rw [hcomm, ← Nat.add_mul, units_pred_add hinner hlast hpos, Nat.mul_assoc]
    exact ⟨by omega, by omega, fun h => ⟨by have := hodd h; omega, by have := hodd h; omega⟩⟩
  · -- The one before is in the binade before, but the fraction is no smaller than this one.
    have hfirst : h = binade := by omega
    have hn : h * (den * 2 ^ e) ≤ n := hfirst ▸ hlow.resolve_left (by omega)
    have hless : units (e * binade + h - 1) < units (e * binade + h) := units_strictMono (by omega)
    have hbefore := Nat.mul_lt_mul_of_pos_right hless hden
    exact ⟨by omega, by omega, fun h => ⟨by omega, by have := hodd h; omega⟩⟩

/-- **A fraction rounds to its nearest rank.** -/
theorem rounds_nearestRank (num : Nat) {den : Nat} (hden : 0 < den) :
    Rounds (nearestRank num den) (num / den) := by
  have hshift : num <<< 1074 = num * unity := shiftLeft_eq_mul num 1074
  obtain ⟨hlow, hhigh⟩ := nearestRank_place (num * unity) hden
  simp only [nearestRank, hshift, Nat.shiftLeft_eq]
  exact rounds_mul_add hden hlow hhigh

/-- **Rounding is to the nearest double.** -/
theorem nearestRank_eq_iff {num den k : Nat} (hden : 0 < den) :
    nearestRank num den = k ↔ Rounds k (num / den) := by
  constructor
  · rintro rfl
    exact rounds_nearestRank num hden
  · exact (rounds_nearestRank num hden).unique

end Calculator.Double
