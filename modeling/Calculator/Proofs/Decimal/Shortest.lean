import Calculator.Decimal.Shortest
import Calculator.Proofs.Decimal.Value

/-!
# Shortest decimals

The scan over the grids finds what it is meant to: no decimal with fewer digits is read as the same
double, and none with as many is nearer to it.

* `roundsTo_iff` says that the test of the scan is rounding;
* `gridPoint?_eq_some` and `gridPoint?_eq_none` are about one grid, `coarsestPoint_spec` is about
  the scan;
* `shortest_rounds`, `shortest_coarsest` and `shortest_nearest` are about its result;
* `IsShortest` are the shortest decimals of a double, `shortest_isShortest` is the conclusion.
-/

namespace Calculator

open Double (Rounds units magnitude)

/-! ## The interval -/

/-- One, in units of `10⁻¹⁰⁷⁴`. -/
def fineUnity : Nat :=
  tenPow 1074

theorem fineUnity_pos : 0 < fineUnity :=
  Decimal.tenPow_pos 1074

theorem fineUnity_eq : fineUnity = fineUnits 1 * Double.unity := by
  decide +kernel

/-- Every magnitude counts in fine units as many times the smallest as in units of `2⁻¹⁰⁷⁴`. -/
theorem fineUnits_eq (k : Nat) : fineUnits k = units k * fineUnits 1 :=
  have hone : Nat.pow 5 1074 = fineUnits 1 := by decide +kernel
  congrArg (units k * ·) hone

theorem fineUnits_one_pos : 0 < fineUnits 1 := by
  decide +kernel

theorem fineUnits_strictMono : StrictMono fineUnits := by
  intro j k h
  rw [fineUnits_eq j, fineUnits_eq k]
  exact Nat.mul_lt_mul_of_pos_right (Double.units_strictMono h) fineUnits_one_pos

theorem fineUnits_div (k : Nat) : (fineUnits k : ℚ) / fineUnity = magnitude k := by
  have hunity : (Double.unity : ℚ) ≠ 0 := Double.cast_unity_pos.ne'
  have hone : (fineUnits 1 : ℚ) ≠ 0 := by exact_mod_cast fineUnits_one_pos.ne'
  rw [fineUnits_eq, fineUnity_eq, magnitude]
  push_cast
  field_simp

/-- **The test of the scan is rounding.** -/
theorem roundsTo_iff {k n : Nat} : roundsTo k n = true ↔ Rounds k (n / fineUnity) := by
  have hscale (a : Nat) : a * fineUnity = a * fineUnits 1 * Double.unity := by
    rw [fineUnity_eq, Nat.mul_assoc]
  rw [Double.rounds_div_iff fineUnity_pos, hscale, hscale, ← Nat.mul_assoc 2,
    Nat.mul_le_mul_right_iff Double.unity_pos, Nat.mul_le_mul_right_iff Double.unity_pos,
    Nat.mul_lt_mul_right Double.unity_pos, Nat.mul_lt_mul_right Double.unity_pos, Nat.add_mul,
    Nat.add_mul, ← fineUnits_eq, ← fineUnits_eq, ← fineUnits_eq]
  simp only [roundsTo]
  split <;> simp only [Bool.and_eq_true, decide_eq_true_eq] <;> omega

/-- A double rounds to itself. -/
theorem roundsTo_self (k : Nat) : roundsTo k (fineUnits k) = true := by
  rw [roundsTo_iff, fineUnits_div]
  exact Rounds.magnitude_self k

/-- The interval has no gaps. -/
theorem roundsTo_between {k l m n : Nat} (hl : roundsTo k l = true) (hn : roundsTo k n = true)
    (hlm : l ≤ m) (hmn : m ≤ n) : roundsTo k m = true := by
  have hunity : (0 : ℚ) < fineUnity := by exact_mod_cast fineUnity_pos
  rw [roundsTo_iff] at hl hn ⊢
  refine hl.between hn ?_ ?_
  · exact div_le_div_of_nonneg_right (by exact_mod_cast hlm) hunity.le
  · exact div_le_div_of_nonneg_right (by exact_mod_cast hmn) hunity.le

/-! ## One grid -/

/-- How far a number of fine units is from the double. -/
def distance (k n : Nat) : Nat :=
  (n - fineUnits k) + (fineUnits k - n)

/-- A point of the interval is no nearer to the double than the multiple next to the double on the
same side, which lies in the interval too. -/
theorem exists_neighbour {k g n : Nat} (h : roundsTo k (n * tenPow g) = true) :
    let below := fineUnits k / tenPow g
    (roundsTo k (below * tenPow g) = true
        ∧ fineUnits k % tenPow g ≤ distance k (n * tenPow g))
      ∨ (roundsTo k ((below + 1) * tenPow g) = true
        ∧ tenPow g - fineUnits k % tenPow g ≤ distance k (n * tenPow g)) := by
  intro below
  have hsplit : below * tenPow g + fineUnits k % tenPow g = fineUnits k := Nat.div_add_mod' _ _
  have hmod : fineUnits k % tenPow g < tenPow g := Nat.mod_lt _ (Decimal.tenPow_pos g)
  -- The point is above the double or not, and its neighbour on that side is between them.
  rcases Nat.lt_or_ge below n with hlt | hle
  · right
    have hgrid : (below + 1) * tenPow g ≤ n * tenPow g := Nat.mul_le_mul_right _ hlt
    have hnext : (below + 1) * tenPow g = below * tenPow g + tenPow g := Nat.succ_mul _ _
    refine ⟨roundsTo_between (roundsTo_self k) h (by omega) hgrid, ?_⟩
    rw [distance]
    omega
  · left
    have hgrid : n * tenPow g ≤ below * tenPow g := Nat.mul_le_mul_right _ hle
    refine ⟨roundsTo_between h (roundsTo_self k) hgrid (by omega), ?_⟩
    rw [distance]
    omega

/-- **The point found on a grid** rounds to the double, and no other does so from nearer. -/
theorem gridPoint?_eq_some {k g c : Nat} (h : gridPoint? k g = some c) :
    roundsTo k (c * tenPow g) = true
      ∧ ∀ n, roundsTo k (n * tenPow g) = true →
          distance k (c * tenPow g) ≤ distance k (n * tenPow g) := by
  have hsplit : fineUnits k / tenPow g * tenPow g + fineUnits k % tenPow g = fineUnits k :=
    Nat.div_add_mod' _ _
  have hmod : fineUnits k % tenPow g < tenPow g := Nat.mod_lt _ (Decimal.tenPow_pos g)
  have hnext : (fineUnits k / tenPow g + 1) * tenPow g
      = fineUnits k / tenPow g * tenPow g + tenPow g := Nat.succ_mul _ _
  have habove : distance k ((fineUnits k / tenPow g + 1) * tenPow g)
      = tenPow g - fineUnits k % tenPow g := by
    rw [distance]
    omega
  have hbelow : distance k (fineUnits k / tenPow g * tenPow g) = fineUnits k % tenPow g := by
    rw [distance]
    omega
  simp only [gridPoint?] at h
  split at h
  case isTrue hcond =>
    obtain rfl := Option.some.inj h
    rw [Bool.and_eq_true, Bool.or_eq_true, Bool.not_eq_true', decide_eq_true_eq] at hcond
    refine ⟨hcond.1, fun n hn => ?_⟩
    rw [habove]
    -- A point below the double makes the smaller neighbour fit, which is not nearer then.
    rcases exists_neighbour hn with ⟨hfits, hdistance⟩ | ⟨-, hdistance⟩
    · have := hcond.2.resolve_left (by rw [hfits]; decide)
      omega
    · exact hdistance
  case isFalse hcond =>
    split at h
    case isFalse => cases h
    case isTrue hfits =>
      obtain rfl := Option.some.inj h
      refine ⟨hfits, fun n hn => ?_⟩
      rw [hbelow]
      rcases exists_neighbour hn with ⟨-, hdistance⟩ | ⟨hfits', hdistance⟩
      · exact hdistance
      · rw [hfits, hfits'] at hcond
        simp at hcond
        omega

/-- Where no point is found on a grid, it has none. -/
theorem gridPoint?_eq_none {k g : Nat} (h : gridPoint? k g = none) (n : Nat) :
    ¬ roundsTo k (n * tenPow g) = true := by
  intro hn
  simp only [gridPoint?] at h
  split at h
  case isTrue => cases h
  case isFalse hcond =>
    split at h
    case isTrue => cases h
    case isFalse hfits =>
      rcases exists_neighbour hn with ⟨hbelow, -⟩ | ⟨habove, -⟩
      · exact hfits hbelow
      · simp [habove, hfits] at hcond

/-! ## The scan -/

/-- **The scan stops at the coarsest grid with a point**, and takes the point found there. -/
theorem coarsestPoint_spec (k g : Nat) :
    let point := coarsestPoint k g
    roundsTo k (point.1 * tenPow point.2) = true
      ∧ (∀ n, roundsTo k (n * tenPow point.2) = true →
          distance k (point.1 * tenPow point.2) ≤ distance k (n * tenPow point.2))
      ∧ ∀ n, ∀ g' ≤ g, roundsTo k (n * tenPow g') = true → g' ≤ point.2 := by
  -- The scan stops at the grid that it starts from, or goes on to the next finer one.
  induction g with
  | zero =>
    have hself : fineUnits k * tenPow 0 = fineUnits k := Nat.mul_one _
    refine ⟨?_, fun n _ => ?_, fun n g' hg' _ => hg'⟩
    · rw [coarsestPoint, hself]
      exact roundsTo_self k
    · rw [coarsestPoint, hself]
      simp [distance]
  | succ g ih =>
    intro point
    cases h : gridPoint? k (g + 1) with
    | some c =>
      have hpoint : point = (c, g + 1) := by simp only [point, coarsestPoint, h]
      rw [hpoint]
      obtain ⟨hrounds, hnearest⟩ := gridPoint?_eq_some h
      exact ⟨hrounds, hnearest, fun n g' hg' _ => hg'⟩
    | none =>
      have hpoint : point = coarsestPoint k g := by simp only [point, coarsestPoint, h]
      rw [hpoint]
      refine ⟨ih.1, ih.2.1, fun n g' hg' hn => ?_⟩
      rcases Nat.lt_or_eq_of_le hg' with hlt | rfl
      · exact ih.2.2 n g' (Nat.lt_succ_iff.mp hlt) hn
      · exact absurd hn (gridPoint?_eq_none h n)

/-- Beyond the grid that the scan starts from, no grid has a point but zero. -/
theorem le_coarseGrid {k g n : Nat} (hn : 0 < n) (h : roundsTo k (n * tenPow g) = true) :
    g ≤ coarseGrid k := by
  by_contra hlt
  obtain ⟨bits, hbits⟩ : ∃ bits, bits = (fineUnits (k + 1)).log2 + 1 := ⟨_, rfl⟩
  have hgrid : 28 * bits ≤ 93 * g := by
    rw [coarseGrid, ← hbits] at hlt
    omega
  -- Twenty-eight decimal digits are more than ninety-three bits.
  have hpow : 2 ^ bits ≤ tenPow g := by
    have : (2 ^ bits) ^ 28 ≤ (10 ^ g) ^ 28 :=
      calc (2 ^ bits) ^ 28 = 2 ^ (28 * bits) := by rw [← Nat.pow_mul, Nat.mul_comm]
        _ ≤ 2 ^ (93 * g) := Nat.pow_le_pow_right (by decide) hgrid
        _ = (2 ^ 93) ^ g := Nat.pow_mul 2 93 g
        _ ≤ (10 ^ 28) ^ g := Nat.pow_le_pow_left (by decide) g
        _ = (10 ^ g) ^ 28 := by rw [← Nat.pow_mul, ← Nat.pow_mul, Nat.mul_comm]
    exact (Nat.pow_le_pow_iff_left (by decide)).mp this
  have hnext : fineUnits (k + 1) < 2 ^ bits := by
    rw [hbits]
    exact Nat.lt_log2_self
  have hself : fineUnits k < fineUnits (k + 1) := fineUnits_strictMono (Nat.lt_succ_self k)
  have hpoint : tenPow g ≤ n * tenPow g := Nat.le_mul_of_pos_left _ hn
  have hupper : 2 * (n * tenPow g) ≤ fineUnits k + fineUnits (k + 1) := by
    simp only [roundsTo] at h
    split at h <;> simp only [Bool.and_eq_true, decide_eq_true_eq] at h <;> omega
  omega

/-! ## The result -/

/-- The decimals of a grid, in fine units. -/
theorem value_grid (c g : Nat) :
    Decimal.value ⟨c, (g : Int) - 1074⟩ = ((c * tenPow g : Nat) : ℚ) / fineUnity :=
  Decimal.value_sub c g 1074

-- The definition is opened for all ranks at once, as for one of them the scan would be run.
theorem shortest_def : shortest = fun k =>
    match coarsestPoint k (coarseGrid k) with
    | (c, g) => ⟨c, g - 1074⟩ := rfl

/-- The shortest decimal stands on the grid where the scan stops. -/
theorem shortest_eq (k : Nat) :
    shortest k = ⟨(coarsestPoint k (coarseGrid k)).1, (coarsestPoint k (coarseGrid k)).2 - 1074⟩ := by
  rewrite [shortest_def]
  beta_reduce
  cases coarsestPoint k (coarseGrid k) with
  | mk c g => rfl

/-- The distance from a double, as a number. -/
theorem abs_sub_magnitude (k n : Nat) :
    |(n : ℚ) / fineUnity - magnitude k| = (distance k n : ℚ) / fineUnity := by
  have hunity : (0 : ℚ) < fineUnity := by exact_mod_cast fineUnity_pos
  rw [← fineUnits_div, ← sub_div, abs_div, abs_of_pos hunity, distance]
  rcases Nat.le_total n (fineUnits k) with h | h
  · rw [Nat.sub_eq_zero_of_le h, Nat.zero_add, Nat.cast_sub h, abs_sub_comm,
      abs_of_nonneg (sub_nonneg.mpr (by exact_mod_cast h))]
  · rw [Nat.sub_eq_zero_of_le h, Nat.add_zero, Nat.cast_sub h,
      abs_of_nonneg (sub_nonneg.mpr (by exact_mod_cast h))]

/-- **The shortest decimal rounds to its double.** -/
theorem shortest_rounds (k : Nat) : Rounds k (shortest k).value := by
  rw [shortest_eq, value_grid, ← roundsTo_iff]
  exact (coarsestPoint_spec k (coarseGrid k)).1

/-- **No decimal that rounds to a double is coarser** than the shortest, but zero. -/
theorem shortest_coarsest {k : Nat} {d : Decimal} (hd : 0 < d.coefficient) (h : Rounds k d.value) :
    d.exponent ≤ (shortest k).exponent := by
  obtain ⟨c, e⟩ := d
  rw [shortest_eq]
  by_cases he : e < -1074
  · show e ≤ _ - 1074
    omega
  · obtain ⟨g, rfl⟩ : ∃ g : Nat, e = g - 1074 := ⟨(e + 1074).toNat, by omega⟩
    rw [value_grid, ← roundsTo_iff] at h
    have := (coarsestPoint_spec k (coarseGrid k)).2.2 c g (le_coarseGrid hd h) h
    show (g : Int) - 1074 ≤ _ - 1074
    omega

/-- Of the decimals that are as coarse, none that rounds to the double is nearer. -/
theorem shortest_nearest {k : Nat} {d : Decimal} (hd : d.exponent = (shortest k).exponent)
    (h : Rounds k d.value) : |(shortest k).value - magnitude k| ≤ |d.value - magnitude k| := by
  have hunity : (0 : ℚ) < fineUnity := by exact_mod_cast fineUnity_pos
  obtain ⟨c, e⟩ := d
  obtain rfl : e = (shortest k).exponent := hd
  rw [shortest_eq] at h ⊢
  rw [value_grid, ← roundsTo_iff] at h
  rw [value_grid, value_grid, abs_sub_magnitude, abs_sub_magnitude]
  have := (coarsestPoint_spec k (coarseGrid k)).2.1 c h
  exact div_le_div_of_nonneg_right (by exact_mod_cast this) hunity.le

/-- The shortest decimal of zero is zero. -/
theorem shortest_zero : (shortest 0).value = 0 := by
  obtain ⟨e, he⟩ : ∃ e, e = (shortest 0).exponent := ⟨_, rfl⟩
  have hzero : Decimal.value ⟨0, e⟩ = 0 := by simp [Decimal.value]
  have hrounds : Rounds 0 (Decimal.value ⟨0, e⟩) := by rw [hzero, Rounds.zero_iff]
  have h := shortest_nearest he hrounds
  rw [hzero, Double.magnitude_zero, sub_zero, sub_zero, abs_zero] at h
  exact abs_eq_zero.mp (le_antisymm h (abs_nonneg _))

/-- **A decimal that rounds to a double, and is the only one of its places that does, is the shortest.**
-/
theorem shortest_of_unique {k : Nat} {d : Decimal} (hd : 0 < d.coefficient) (h : Rounds k d.value)
    (hunique : ∀ n, Rounds k (Decimal.value ⟨n, d.exponent⟩) → n = d.coefficient) :
    (shortest k).value = d.value := by
  have hcoarse := shortest_coarsest hd h
  have hself := shortest_rounds k
  generalize shortest k = s at hcoarse hself ⊢
  obtain ⟨c, e⟩ := s
  -- What has no more places can be written with as many.
  obtain ⟨n, rfl⟩ : ∃ n : Nat, e = n + d.exponent := ⟨(e - d.exponent).toNat, by simp at hcoarse; omega⟩
  rw [← Decimal.value_mul_pow] at hself ⊢
  rw [hunique _ hself]

/-- The shortest decimals increase with the rank. -/
theorem shortest_strictMono : StrictMono fun k => (shortest k).value :=
  fun j k h => (shortest_rounds j).lt_of_lt (shortest_rounds k) h

/-- What rounds to a positive double is positive. -/
theorem coefficient_pos_of_rounds {k : Nat} (hk : 0 < k) {d : Decimal} (h : Rounds k d.value) :
    0 < d.coefficient := by
  rw [Nat.pos_iff_ne_zero, Ne, ← Decimal.value_eq_zero_iff]
  intro hzero
  rw [hzero, Rounds.zero_iff] at h
  omega

/-- The shortest decimal of a positive double is positive. -/
theorem shortest_pos {k : Nat} (hk : 0 < k) : 0 < (shortest k).coefficient :=
  coefficient_pos_of_rounds hk (shortest_rounds k)

/-- No power of ten between two numbers that round to a double is coarser than its shortest decimal.
-/
theorem le_exponent_of_between {k : Nat} {p r : ℚ} (hp : Rounds k p) (hr : Rounds k r) {e : Int}
    (hpe : p ≤ 10 ^ e) (her : 10 ^ e ≤ r) : e ≤ (shortest k).exponent := by
  have hvalue : Decimal.value ⟨1, e⟩ = 10 ^ e := by simp [Decimal.value]
  have hrounds : Rounds k (Decimal.value ⟨1, e⟩) := by
    rw [hvalue]
    exact hp.between hr hpe her
  exact shortest_coarsest Nat.one_pos hrounds

/-- A decimal is below the power of ten of its length. -/
theorem Decimal.value_lt (d : Decimal) : d.value < 10 ^ (d.exponent + d.digits.length) := by
  have hpos : 0 < d.digits.length := List.length_pos_of_ne_nil d.digits_ne_nil
  have hlt : d.coefficient < 10 ^ d.digits.length :=
    (Nat.length_toDigits_le_iff (by decide) hpos).mp (Nat.le_refl _)
  have hlt' : (d.coefficient : ℚ) < 10 ^ d.digits.length := by exact_mod_cast hlt
  have hpow : (0 : ℚ) < 10 ^ d.exponent := by positivity
  rw [value, zpow_add₀ (by norm_num), zpow_natCast, mul_comm]
  exact mul_lt_mul_of_pos_left hlt' hpow

/-- A decimal with more than `n` digits is no smaller than the power of ten of this length. -/
theorem Decimal.le_value {d : Decimal} {n : Nat} (hd : 0 < d.coefficient)
    (hn : n < d.digits.length) : 10 ^ (d.exponent + n) ≤ d.value := by
  have hle : 10 ^ n ≤ d.coefficient := by
    rcases Nat.eq_zero_or_pos n with rfl | hpos
    · exact hd
    · by_contra hlt
      have := (Nat.length_toDigits_le_iff (by decide) hpos).mpr (Nat.lt_of_not_le hlt)
      rw [digits] at hn
      omega
  have hle' : (10 : ℚ) ^ n ≤ d.coefficient := by exact_mod_cast hle
  have hpow : (0 : ℚ) < 10 ^ d.exponent := by positivity
  rw [value, zpow_add₀ (by norm_num), zpow_natCast, mul_comm]
  exact mul_le_mul_of_nonneg_right hle' hpow.le

/-- **No decimal that rounds to a double has fewer digits** than the shortest. -/
theorem length_shortest_le {k : Nat} {d : Decimal} (h : Rounds k d.value) :
    (shortest k).digits.length ≤ d.digits.length := by
  by_contra hlt
  have hpos : 0 < d.digits.length := List.length_pos_of_ne_nil d.digits_ne_nil
  rcases Nat.eq_zero_or_pos k with rfl | hk
  · -- Zero has one digit.
    have hzero := Decimal.value_eq_zero_iff.mp shortest_zero
    have hlength : (shortest 0).digits.length ≤ 1 := by
      rw [Decimal.digits, hzero, Nat.toDigits_zero]
      exact Nat.le_refl 1
    omega
  · -- The power of ten above the one and not above the other would be coarser.
    have hcoarse := shortest_coarsest (coefficient_pos_of_rounds hk h) h
    have hlow : d.value ≤ 10 ^ ((shortest k).exponent + d.digits.length) :=
      d.value_lt.le.trans (zpow_le_zpow_right₀ (by norm_num) (by omega))
    have hhigh := Decimal.le_value (shortest_pos hk) (Nat.lt_of_not_le hlt)
    have := le_exponent_of_between h (shortest_rounds k) hlow hhigh
    omega

/-- **Seventeen digits are enough.** A shortest decimal of more digits could be cut by one, as the interval
is longer than a unit of the digit before the last. -/
theorem length_shortest_le_seventeen {k : Nat} (hk : 0 < k) : (shortest k).digits.length ≤ 17 := by
  by_contra hlt
  have hvalue := Decimal.le_value (n := 17) (shortest_pos hk) (Nat.lt_of_not_le hlt)
  have hupper := (shortest_rounds k).upper
  have hlong := Double.upperEnd_lt_mul hk
  obtain ⟨e, he⟩ : ∃ e, e = (shortest k).exponent := ⟨_, rfl⟩
  have hpow : (10 : ℚ) ^ (e + (17 : Nat)) = 10 ^ 16 * 10 ^ (e + 1) := by
    rw [show e + (17 : Nat) = (16 : Nat) + (e + 1) by omega, zpow_add₀ (by norm_num), zpow_natCast]
  rw [← he, hpow] at hvalue
  obtain ⟨m, hm, hrounds⟩ := Rounds.exists_mul (k := k) (u := 10 ^ (e + 1)) (by positivity)
    (by linarith)
  have hcoarse := shortest_coarsest (d := ⟨m, e + 1⟩) hm hrounds
  simp only at hcoarse
  omega

/-! ## The nearest of the shortest -/

/-- Only the first doubles are so far apart that the interval of one reaches from nine tenths of a
number to that number. -/
theorem le_nine_of_wide {k : Nat} (hk : 0 < k)
    (h : 10 * (units (k - 1) + units k) ≤ 9 * (units k + units (k + 1))) : k ≤ 9 := by
  obtain ⟨j, rfl⟩ : ∃ j, k = j + 1 := ⟨k - 1, by omega⟩
  have hspacing : Double.spacing j ≤ Double.spacing (j + 1) := Double.spacing_mono (Nat.le_succ j)
  have hpos := Double.spacing_pos (j + 1)
  have hbefore := Double.units_succ j
  have hnext := Double.units_succ (j + 1)
  rw [Nat.add_sub_cancel] at h
  have hwide : 2 * units (j + 1) ≤ 19 * Double.spacing (j + 1) := by omega
  have hbinade : Double.binade = 2 ^ 52 := rfl
  -- From the first full binade on a magnitude is far more than ten spacings.
  by_cases hj : Double.binade ≤ j + 1
  · have := Double.binade_mul_spacing_le hj
    rw [hbinade] at this
    omega
  · have hself : units (j + 1) = j + 1 := Double.units_of_lt (by omega)
    have hself' : units (j + 1 + 1) = j + 1 + 1 := Double.units_of_lt (by omega)
    omega

/-- Of the first doubles only the second has a power of ten between itself and the middle to the next:
`10⁻³²³`, which is read as `9.9·10⁻³²⁴`. -/
theorem eq_of_few {k g : Nat} (hk : 0 < k) (hfew : k ≤ 9) (hself : k * fineUnits 1 < tenPow g)
    (hhigh : 2 * tenPow g ≤ 2 * (k * fineUnits 1) + fineUnits 1) : g = 751 ∧ k = 2 := by
  have hmono {a b : Nat} (h : a ≤ b) : tenPow a ≤ tenPow b := Nat.pow_le_pow_right (by decide) h
  have hfirst : fineUnits 1 ≤ k * fineUnits 1 := Nat.le_mul_of_pos_left _ hk
  have hlast : k * fineUnits 1 ≤ 9 * fineUnits 1 := Nat.mul_le_mul_right _ hfew
  -- The power is between one and ten times the smallest double, which leaves one power only.
  obtain rfl : g = 751 := by
    have habove : tenPow 750 < fineUnits 1 := by decide +kernel
    have hbelow : 19 * fineUnits 1 < 2 * tenPow 752 := by decide +kernel
    apply Nat.le_antisymm
    · by_contra hlt
      have := hmono (show 752 ≤ g by omega)
      omega
    · by_contra hlt
      have := hmono (show g ≤ 750 by omega)
      omega
  have hthree : tenPow 751 < 3 * fineUnits 1 := by decide +kernel
  have htwo : 3 * fineUnits 1 < 2 * tenPow 751 := by decide +kernel
  have hless : k < 3 := by
    by_contra hlt
    have := Nat.mul_le_mul_right (fineUnits 1) (Nat.le_of_not_lt hlt)
    omega
  have hmore : 1 ≠ k := by
    rintro rfl
    omega
  exact ⟨rfl, by omega⟩

/-- Where a power of ten rounds to a double below it, and so does a number of nine tenths of it, the
double is nearer to the power. -/
theorem near_power {k g : Nat} (hk : 0 < k) (hself : fineUnits k < tenPow g)
    (hlow : 10 * (fineUnits (k - 1) + fineUnits k) ≤ 18 * tenPow g)
    (hhigh : 2 * tenPow g ≤ fineUnits k + fineUnits (k + 1)) :
    19 * tenPow g ≤ 20 * fineUnits k := by
  have hfew : k ≤ 9 := by
    apply le_nine_of_wide hk
    apply Nat.le_of_mul_le_mul_right _ fineUnits_one_pos
    have := fineUnits_eq (k - 1)
    have := fineUnits_eq k
    have := fineUnits_eq (k + 1)
    rw [Nat.mul_assoc, Nat.mul_assoc, Nat.add_mul, Nat.add_mul]
    omega
  have hsmall (l : Nat) (hl : l ≤ 10) : fineUnits l = l * fineUnits 1 := by
    have hbinade : 10 < 2 * Double.binade := by decide
    rw [fineUnits_eq, Double.units_of_lt (by omega)]
  rw [hsmall k (by omega)] at hself hhigh ⊢
  rw [hsmall (k + 1) (by omega), Nat.add_mul, Nat.one_mul] at hhigh
  obtain ⟨rfl, rfl⟩ := eq_of_few hk hfew hself (by omega)
  decide +kernel

/-- A decimal of one digit is nine tenths of a coarser power of ten at most. -/
theorem Decimal.value_le_nine_tenths {d : Decimal} {e : Int} (hdigits : d.digits.length = 1)
    (h : d.exponent < e) : d.value ≤ 9 / 10 * 10 ^ e := by
  have hcoefficient : d.coefficient ≤ 9 := by
    have := (Nat.length_toDigits_le_iff (by decide) Nat.one_pos).mp hdigits.le
    omega
  have hcoefficient' : (d.coefficient : ℚ) ≤ 9 := by exact_mod_cast hcoefficient
  have hpow : (10 : ℚ) ^ d.exponent ≤ 10 ^ (e - 1) := zpow_le_zpow_right₀ (by norm_num) (by omega)
  have hpos : (0 : ℚ) < 10 ^ d.exponent := by positivity
  rw [zpow_sub_one₀ (by norm_num)] at hpow
  calc d.value = d.coefficient * 10 ^ d.exponent := rfl
    _ ≤ 9 * (10 ^ e * 10⁻¹) := by nlinarith
    _ = 9 / 10 * 10 ^ e := by ring

/-- The middle between two doubles, in fine units. -/
theorem middle_eq (j k : Nat) :
    (magnitude j + magnitude k) / 2 = ((fineUnits j + fineUnits k : Nat) : ℚ) / 2 / fineUnity := by
  rw [← fineUnits_div, ← fineUnits_div]
  push_cast
  ring

/-- A power of ten with the coarseness of the shortest decimal is no farther from the double than a
finer decimal of one digit. -/
theorem abs_power_sub_le {k : Nat} (hk : 0 < k) {d : Decimal} (h : Rounds k d.value)
    (hdigits : d.digits.length = 1) (hfiner : d.exponent < (shortest k).exponent)
    (hpower : Rounds k (10 ^ (shortest k).exponent)) :
    |10 ^ (shortest k).exponent - magnitude k| ≤ |d.value - magnitude k| := by
  have hunity : (0 : ℚ) < fineUnity := by exact_mod_cast fineUnity_pos
  have hscale {p q : ℚ} : p / fineUnity ≤ q / fineUnity ↔ p ≤ q :=
    div_le_div_iff_of_pos_right hunity
  obtain ⟨g, hg⟩ : ∃ g : Nat, (shortest k).exponent = g - 1074 :=
    ⟨(coarsestPoint k (coarseGrid k)).2, by rw [shortest_eq]⟩
  have hvalue : (10 : ℚ) ^ (shortest k).exponent = (tenPow g : ℚ) / fineUnity := by
    have := value_grid 1 g
    rw [Nat.one_mul] at this
    rw [hg, ← this]
    simp [Decimal.value]
  have hnine := Decimal.value_le_nine_tenths hdigits hfiner
  have hpos : (0 : ℚ) < 10 ^ (shortest k).exponent := by positivity
  rcases le_or_gt (10 ^ (shortest k).exponent) (magnitude k) with hle | hlt
  · -- The power is between the decimal and the double.
    rw [abs_sub_comm, abs_sub_comm d.value, abs_of_nonneg (by linarith), abs_of_nonneg (by linarith)]
    linarith
  · -- The double is between the decimal and the power, and near to the power.
    have hself : fineUnits k < tenPow g := by
      rw [hvalue, ← fineUnits_div, div_lt_div_iff_of_pos_right hunity] at hlt
      exact_mod_cast hlt
    have hlow : 10 * (fineUnits (k - 1) + fineUnits k) ≤ 18 * tenPow g := by
      have hend := h.lower.trans hnine
      rw [Double.lowerEnd, middle_eq, hvalue, ← mul_div_assoc, hscale] at hend
      have : (10 * (fineUnits (k - 1) + fineUnits k : Nat) : ℚ) ≤ 18 * tenPow g := by linarith
      exact_mod_cast this
    have hhigh : 2 * tenPow g ≤ fineUnits k + fineUnits (k + 1) := by
      have hend := hpower.upper
      rw [Double.upperEnd, middle_eq, hvalue, hscale] at hend
      have : (2 * tenPow g : ℚ) ≤ (fineUnits k + fineUnits (k + 1) : Nat) := by linarith
      exact_mod_cast this
    have hnear : 19 / 20 * 10 ^ (shortest k).exponent ≤ magnitude k := by
      have : (19 * tenPow g : ℚ) ≤ 20 * fineUnits k := by
        exact_mod_cast near_power hk hself hlow hhigh
      rw [hvalue, ← fineUnits_div, ← mul_div_assoc, hscale]
      linarith
    rw [abs_of_pos (by linarith), abs_sub_comm, abs_of_nonneg (by linarith)]
    linarith

/-- **No decimal that rounds to a double and has as few digits** as the shortest is nearer. -/
theorem abs_shortest_sub_le {k : Nat} {d : Decimal} (h : Rounds k d.value)
    (hlength : d.digits.length = (shortest k).digits.length) :
    |(shortest k).value - magnitude k| ≤ |d.value - magnitude k| := by
  rcases Nat.eq_zero_or_pos k with rfl | hk
  · rw [shortest_zero, Double.magnitude_zero, sub_zero, abs_zero]
    exact abs_nonneg _
  have hcoarse := shortest_coarsest (coefficient_pos_of_rounds hk h) h
  rcases eq_or_lt_of_le hcoarse with heq | hfiner
  · exact shortest_nearest heq h
  -- A power of ten is between the finer decimal and the shortest: this has one digit, else it would
  -- not be the coarsest.
  have hpos : 0 < d.digits.length := List.length_pos_of_ne_nil d.digits_ne_nil
  have hlow : d.value ≤ 10 ^ ((shortest k).exponent + (d.digits.length - 1 : Nat)) :=
    d.value_lt.le.trans (zpow_le_zpow_right₀ (by norm_num) (by omega))
  have hhigh := Decimal.le_value (n := d.digits.length - 1) (shortest_pos hk) (by omega)
  have hexponent := le_exponent_of_between h (shortest_rounds k) hlow hhigh
  have hone : d.digits.length = 1 := by omega
  rw [hone, Nat.sub_self, Nat.cast_zero, add_zero] at hlow hhigh
  have hpower := h.between (shortest_rounds k) hlow hhigh
  have hfar := abs_power_sub_le hk h hone hfiner hpower
  obtain ⟨e, he⟩ : ∃ e, e = (shortest k).exponent := ⟨_, rfl⟩
  have hvalue : Decimal.value ⟨1, e⟩ = 10 ^ e := by simp [Decimal.value]
  rw [← he, ← hvalue] at hpower hfar
  exact (shortest_nearest he hpower).trans hfar

/-- The shortest decimals of a double: read, they give it back, no decimal that does has fewer digits,
and none with as many digits is nearer to it. -/
structure IsShortest (x : Float) (d : Decimal) : Prop where
  reads : d.toFloat (Double.isNegative x) = x
  fewest : ∀ e : Decimal, e.toFloat (Double.isNegative x) = x → d.digits.length ≤ e.digits.length
  nearest : ∀ e : Decimal, e.toFloat (Double.isNegative x) = x → e.digits.length = d.digits.length →
    |d.value - magnitude (Double.rank x)| ≤ |e.value - magnitude (Double.rank x)|

/-- **The scan finds the shortest decimal** of every finite double. -/
theorem shortest_isShortest {x : Float} (hx : Double.isFinite x = true) :
    IsShortest x (shortest (Double.rank x)) where
  reads := (Decimal.toFloat_eq_iff hx).mpr (shortest_rounds _)
  fewest _ he := length_shortest_le ((Decimal.toFloat_eq_iff hx).mp he)
  nearest _ he := abs_shortest_sub_le ((Decimal.toFloat_eq_iff hx).mp he)

end Calculator
