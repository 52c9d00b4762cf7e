import Calculator.Proofs.Double.Bits
import Calculator.Proofs.Double.Rounding

/-!
# The order of the doubles

The finite doubles stand in one row, with the ranks of the negative ones counted to the left of zero.
Two of them are compared field by field, sign, exponent and mantissa, and this comes to comparing their
places in the row.

* `place` is the place of a double in the row, and `signed_le_iff` says that whatever increases with the
  rank increases along the row;
* `unpacked` are the fields of a magnitude, `unpack_toBits` says that they are those of a double;
* `compare_unpacked` compares fields, `le_iff_place_le`, `lt_iff_place_lt` and `beq_iff_place_eq` compare
  doubles;
* `neg_ofRank` is the change of sign, `abs_eq_ofRank` takes the sign away.
-/

namespace Calculator.Double

open Float.Model (Format UnpackedFloat)
open Float.Model.UnpackedFloat (Sign pack unpack packComponents unpackSign unpackExponent unpackMantissa
  unpackSign_def pack_unpack_of_valid packComponents_unpackSign_unpackExponent_unpackMantissa
  unpackMantissa_packComponents unpackExponent_packComponents unpackSign_packComponents)

/-! ## The row -/

/-- The place of a double in the row of the finite ones: its rank, to the left of zero if it has a
sign. -/
def place (x : Float) : Int :=
  if isNegative x then -rank x else rank x

/-- **What increases with the rank increases along the row**, once the sign is put to it. -/
theorem signed_le_iff {f : Nat → ℚ} (hf : StrictMono f) (hzero : f 0 = 0) (x y : Float) :
    (if isNegative x then -f (rank x) else f (rank x))
        ≤ (if isNegative y then -f (rank y) else f (rank y))
      ↔ place x ≤ place y := by
  have hle {j k : Nat} : f j ≤ f k ↔ j ≤ k := hf.le_iff_le
  have hnonneg (k : Nat) : 0 ≤ f k := by
    rw [← hzero, hle]
    exact Nat.zero_le k
  have hnone {k : Nat} : f k = 0 ↔ k = 0 := by
    rw [← hzero]
    exact hf.injective.eq_iff
  rw [place, place]
  generalize rank x = j
  generalize rank y = k
  have hj := hnonneg j
  have hk := hnonneg k
  cases isNegative x <;> cases isNegative y <;> simp only [Bool.false_eq_true, if_false, if_true]
  case false.false =>
    rw [hle, Nat.cast_le]
  case false.true =>
    -- What has no sign is no larger than what has one only if both are zero.
    have hboth : f j ≤ -f k ↔ f j = 0 ∧ f k = 0 := by
      constructor
      · intro h
        constructor <;> linarith
      · rintro ⟨h, h'⟩
        rw [h, h', neg_zero]
    rw [hboth, hnone, hnone]
    omega
  case true.false =>
    have hless : -f j ≤ f k := by linarith
    simp only [hless, true_iff]
    omega
  case true.true =>
    rw [neg_le_neg_iff, neg_le_neg_iff, hle, Nat.cast_le]

/-- A place is that of one double, but for the sign of zero. -/
theorem eq_of_place_eq {x y : Float} (hx : isFinite x = true) (hy : isFinite y = true)
    (h : place x = place y) : x = y ∨ rank x = 0 ∧ rank y = 0 := by
  have hrank := isFinite_iff.mp hx
  have hrank' := isFinite_iff.mp hy
  rw [place, place] at h
  by_cases hsign : isNegative x = isNegative y
  · left
    have heq : rank x = rank y := by
      rw [hsign] at h
      split at h <;> omega
    rw [← ofRank_rank hrank.le, ← ofRank_rank hrank'.le, hsign, heq]
  · right
    rw [Bool.eq_not.mpr hsign] at h
    generalize isNegative y = negative at h
    cases negative <;> simp at h <;> omega

/-! ## The fields -/

/-- The sign, the mantissa and the exponent of a finite double, by its rank. The smallest doubles share
the exponent of the first binade. -/
def unpacked (s : Sign) (k : Nat) : UnpackedFloat :=
  let doublings := k / binade - 1
  if h : 0 < k - doublings * binade then .finite s (k - doublings * binade) (doublings - 1074) h
  else .zero s

theorem toNat_unpackSign (b : BitVec Format.binary64.numBits) :
    (unpackSign b).toNat = b.toNat / 2 ^ 63 % 2 := by
  rw [unpackSign_def, BitVec.extractLsb'_toNat, Nat.shiftRight_eq_div_pow]
  rfl

/-- The sign of a double, as it is unpacked. -/
def signOf (x : Float) : Sign :=
  if isNegative x then .negative else .positive

theorem ofBitVec_unpackSign (x : Float) :
    Sign.ofBitVec (@unpackSign Format.binary64 x.toBits.toBitVec) = signOf x := by
  have hbit : (@unpackSign Format.binary64 x.toBits.toBitVec).toNat
      = x.toBits.toNat / 2 ^ 63 % 2 := toNat_unpackSign _
  have hbits : x.toBits.toNat < 2 ^ 64 := x.toBits.toNat_lt
  rw [Sign.ofBitVec, signOf, isNegative, show signBit = 2 ^ 63 from rfl]
  by_cases h : 2 ^ 63 ≤ x.toBits.toNat
  · rw [if_neg, if_pos (decide_eq_true h)]
    intro hnone
    rw [hnone] at hbit
    simp only [BitVec.toNat_ofNat] at hbit
    omega
  · rw [if_pos, if_neg (by simpa using h)]
    apply BitVec.eq_of_toNat_eq
    rw [hbit]
    simp only [BitVec.toNat_ofNat]
    omega

@[simp] theorem unpacked_zero (s : Sign) : unpacked s 0 = .zero s := by
  simp [unpacked]

/-- The fields of a positive magnitude: its place among those that are as widely spaced, and how often
the spacing has doubled. -/
theorem unpacked_mul_add (s : Sign) {d h : Nat} (hlow : d = 0 ∨ binade ≤ h) (hhigh : h < 2 * binade)
    (hpos : 0 < h) : unpacked s (d * binade + h) = .finite s h (d - 1074) hpos := by
  have hbinade : binade = 2 ^ 52 := rfl
  have hdoublings : (d * binade + h) / binade - 1 = d := by
    rw [hbinade] at hlow hhigh ⊢
    omega
  simp only [unpacked, hdoublings, Nat.add_sub_cancel_left, dif_pos hpos]

/-- The fields of a finite double are unpacked by the rank that they spell. -/
theorem unpack_packComponents (s : Sign) {e : BitVec 11} (m : BitVec 52) (he : e.toNat < 2047) :
    unpack Format.binary64 (packComponents Format.binary64 s e m)
      = unpacked s (e.toNat * binade + m.toNat) := by
  have hbinade : binade = 2 ^ 52 := rfl
  have hm : m.toNat < 2 ^ 52 := m.isLt
  have hfinite : e ≠ -1#11 := by
    rintro rfl
    exact absurd he (by decide)
  have hbias : ((Format.binary64.exponentBias : Nat) : Int) = 1023 := rfl
  simp only [unpack, unpackMantissa_packComponents, unpackExponent_packComponents,
    unpackSign_packComponents, Sign.ofBitVec_toBitVec, if_neg hfinite, hbias]
  by_cases hzero : e = 0#11
  · -- No doubling yet: the mantissa is the rank.
    have he' : e.toNat = 0 := by rw [hzero]; rfl
    rw [if_pos hzero, he', Nat.zero_mul, Nat.zero_add]
    by_cases hnone : m = 0#52
    · rw [dif_pos hnone, hnone]
      exact (unpacked_zero s).symm
    · have hpos : 0 < m.toNat := by
        rw [Nat.pos_iff_ne_zero]
        intro h
        exact hnone (BitVec.eq_of_toNat_eq h)
      have hself := unpacked_mul_add s (d := 0) (.inl rfl) (by omega) hpos
      rw [Nat.zero_mul, Nat.zero_add] at hself
      rw [dif_neg hnone, hself]
      rfl
  · -- The mantissa has a leading bit that is not written.
    have hpos : 0 < e.toNat := by
      rw [Nat.pos_iff_ne_zero]
      intro h
      exact hzero (BitVec.eq_of_toNat_eq h)
    obtain ⟨d, hd⟩ : ∃ d, e.toNat = d + 1 := ⟨e.toNat - 1, by omega⟩
    have hself := unpacked_mul_add s (d := d) (h := binade + m.toNat) (.inr (by omega)) (by omega)
      (by omega)
    rw [if_neg hzero, hd, show (d + 1) * binade + m.toNat = d * binade + (binade + m.toNat) by ring,
      hself]
    congr 1
    · rw [BitVec.toNat_append, ← Nat.shiftLeft_add_eq_or_of_lt hm]
      rfl
    · push_cast
      ring

/-- The fields of a finite double spell its rank. -/
theorem exists_components {x : Float} (hx : isFinite x = true) :
    ∃ (e : BitVec 11) (m : BitVec 52), e.toNat < 2047 ∧ rank x = e.toNat * binade + m.toNat
      ∧ x.toBits.toBitVec = packComponents Format.binary64 (signOf x) e m := by
  have hrank := isFinite_iff.mp hx
  rw [show infinityRank = 2047 * 2 ^ 52 from rfl] at hrank
  have hexponent : (@unpackExponent Format.binary64 x.toBits.toBitVec).toNat
      = x.toBits.toNat / 2 ^ 52 % 2 ^ 11 := toNat_unpackExponent _
  have hmantissa : (@unpackMantissa Format.binary64 x.toBits.toBitVec).toNat
      = x.toBits.toNat % 2 ^ 52 := toNat_unpackMantissa _
  refine ⟨@unpackExponent Format.binary64 x.toBits.toBitVec,
    @unpackMantissa Format.binary64 x.toBits.toBitVec, ?_, ?_, ?_⟩
  · rw [rank, show signBit = 2 ^ 63 from rfl] at hrank
    omega
  · rw [hexponent, hmantissa, rank, show signBit = 2 ^ 63 from rfl,
      show binade = 2 ^ 52 from rfl]
    rw [rank, show signBit = 2 ^ 63 from rfl] at hrank
    omega
  · rw [← ofBitVec_unpackSign, packComponents_unpackSign_unpackExponent_unpackMantissa]

/-- **What a finite double is unpacked to**, by its sign and its rank. -/
theorem unpack_toBits {x : Float} (hx : isFinite x = true) :
    unpack Format.binary64 x.toBits.toBitVec = unpacked (signOf x) (rank x) := by
  obtain ⟨e, m, he, hrank, hbits⟩ := exists_components hx
  rw [hbits, hrank, unpack_packComponents _ _ he]

/-! ## The comparison -/

/-- Two magnitudes are compared by their doublings first, and then by their places. -/
theorem compare_mul_add {d e h j : Nat} (hlow : d = 0 ∨ binade ≤ h) (hhigh : h < 2 * binade)
    (hlow' : e = 0 ∨ binade ≤ j) (hhigh' : j < 2 * binade) :
    (compare ((d : Int) - 1074) (e - 1074)).then (compare h j)
      = compare (d * binade + h) (e * binade + j) := by
  have hbinade : binade = 2 ^ 52 := rfl
  rw [hbinade] at hlow hhigh hlow' hhigh' ⊢
  rcases Nat.lt_trichotomy d e with hlt | rfl | hgt
  · have hless : compare (d * 2 ^ 52 + h) (e * 2 ^ 52 + j) = .lt := Nat.compare_eq_lt.mpr (by omega)
    rw [Int.compare_eq_lt.mpr (by omega), hless]
    rfl
  · rw [Int.compare_eq_eq.mpr rfl]
    show compare h j = _
    rcases Nat.lt_trichotomy h j with hlt | rfl | hgt
    · rw [Nat.compare_eq_lt.mpr hlt, Nat.compare_eq_lt.mpr (by omega)]
    · rw [Nat.compare_eq_eq.mpr rfl, Nat.compare_eq_eq.mpr rfl]
    · rw [Nat.compare_eq_gt.mpr hgt, Nat.compare_eq_gt.mpr (by omega)]
  · have hmore : compare (d * 2 ^ 52 + h) (e * 2 ^ 52 + j) = .gt := Nat.compare_eq_gt.mpr (by omega)
    rw [Int.compare_eq_gt.mpr (by omega), hmore]
    rfl

/-- A rank is zero, or it is a place in its binade. -/
theorem unpacked_cases (k : Nat) :
    (k = 0 ∧ ∀ s, unpacked s k = .zero s)
      ∨ ∃ d h, ∃ hpos : 0 < h, k = d * binade + h ∧ (d = 0 ∨ binade ≤ h) ∧ h < 2 * binade
          ∧ ∀ s, unpacked s k = .finite s h (d - 1074) hpos := by
  obtain ⟨d, h, rfl, hlow, hhigh⟩ := exists_mul_add k
  rcases Nat.eq_zero_or_pos h with rfl | hpos
  · have hbinade : 0 < binade := by decide
    obtain rfl : d = 0 := by omega
    exact .inl ⟨by simp, fun s => by simp⟩
  · exact .inr ⟨d, h, hpos, rfl, hlow, hhigh, fun s => unpacked_mul_add s hlow hhigh hpos⟩

theorem compare_natCast (j k : Nat) : compare (j : Int) k = compare j k := by
  rcases Nat.lt_trichotomy j k with h | rfl | h
  · rw [Nat.compare_eq_lt.mpr h, Int.compare_eq_lt.mpr (Int.ofNat_lt.mpr h)]
  · rw [Nat.compare_eq_eq.mpr rfl, Int.compare_eq_eq.mpr rfl]
  · rw [Nat.compare_eq_gt.mpr h, Int.compare_eq_gt.mpr (Int.ofNat_lt.mpr h)]

theorem compare_neg_natCast (j k : Nat) : compare (-j : Int) (-k) = (compare j k).swap := by
  rcases Nat.lt_trichotomy j k with h | rfl | h
  · rw [Nat.compare_eq_lt.mpr h, Int.compare_eq_gt.mpr (by omega)]
    rfl
  · rw [Nat.compare_eq_eq.mpr rfl, Int.compare_eq_eq.mpr rfl]
    rfl
  · rw [Nat.compare_eq_gt.mpr h, Int.compare_eq_lt.mpr (by omega)]
    rfl

/-- **Fields are compared like places in the row.** -/
theorem compare_unpacked (s t : Sign) (j k : Nat) :
    (unpacked s j).compare (unpacked t k) = some (compare (s.apply j) (t.apply k)) := by
  rcases unpacked_cases j with ⟨rfl, hj⟩ | ⟨d, h, hpos, hj, hlow, hhigh, hunpacked⟩ <;>
    rcases unpacked_cases k with ⟨rfl, hk⟩ | ⟨e, i, hpos', hk, hlow', hhigh', hunpacked'⟩
  · -- The zeros are equal.
    rw [hj, hk]
    cases s <;> cases t <;> rfl
  · -- Zero and a magnitude: the sign of the magnitude decides.
    have hless : compare (0 : Int) k = .lt := Int.compare_eq_lt.mpr (by omega)
    have hmore : compare (0 : Int) (-k) = .gt := Int.compare_eq_gt.mpr (by omega)
    rw [hj, hunpacked']
    cases s <;> cases t <;> simp [UnpackedFloat.compare, Sign.apply, hless, hmore]
  · have hmore : compare (j : Int) 0 = .gt := Int.compare_eq_gt.mpr (by omega)
    have hless : compare (-j : Int) 0 = .lt := Int.compare_eq_lt.mpr (by omega)
    rw [hk, hunpacked]
    cases s <;> cases t <;> simp [UnpackedFloat.compare, Sign.apply, hless, hmore]
  · -- Two magnitudes: their fields decide, the other way round if both have a sign.
    have hcompare := compare_mul_add hlow hhigh hlow' hhigh'
    rw [← hj, ← hk] at hcompare
    have hless : compare (-j : Int) k = .lt := Int.compare_eq_lt.mpr (by omega)
    have hmore : compare (j : Int) (-k) = .gt := Int.compare_eq_gt.mpr (by omega)
    rw [hunpacked, hunpacked']
    cases s <;> cases t <;>
      simp [UnpackedFloat.compare, Sign.apply, hcompare, hless, hmore, compare_natCast,
        compare_neg_natCast]

theorem apply_signOf (x : Float) : (signOf x).apply (rank x) = place x := by
  rw [signOf, place]
  split <;> rfl

section

variable {x y : Float} (hx : isFinite x = true) (hy : isFinite y = true)

include hx hy

/-- The patterns of two doubles are compared like their places. -/
theorem compare_toBits :
    (unpack Format.binary64 x.toBits.toBitVec).compare (unpack Format.binary64 y.toBits.toBitVec)
      = some (compare (place x) (place y)) := by
  rw [unpack_toBits hx, unpack_toBits hy, compare_unpacked, apply_signOf, apply_signOf]

/-- **Finite doubles are ordered by their places**, and so by the numbers that they are. -/
theorem le_iff_place_le : x ≤ y ↔ place x ≤ place y := by
  show decide (UnpackedFloat.le (unpack Format.binary64 x.toBits.toBitVec)
    (unpack Format.binary64 y.toBits.toBitVec) = true) = true ↔ _
  rw [decide_eq_true_iff, UnpackedFloat.le, compare_toBits hx hy, Option.any_some, Int.isLE_compare]

theorem lt_iff_place_lt : x < y ↔ place x < place y := by
  show decide (UnpackedFloat.lt (unpack Format.binary64 x.toBits.toBitVec)
    (unpack Format.binary64 y.toBits.toBitVec) = true) = true ↔ _
  rw [decide_eq_true_iff, UnpackedFloat.lt, compare_toBits hx hy, beq_iff_eq, Option.some_inj,
    Int.compare_eq_lt]

/-- **Finite doubles are equal if their places are**, which the two zeros share. -/
theorem beq_iff_place_eq : (x == y) = true ↔ place x = place y := by
  show UnpackedFloat.beq (unpack Format.binary64 x.toBits.toBitVec)
    (unpack Format.binary64 y.toBits.toBitVec) = true ↔ _
  rw [UnpackedFloat.beq, compare_toBits hx hy, beq_iff_eq, Option.some_inj, Int.compare_eq_eq]

end

/-! ## The sign -/

/-- A finite double is packed from its fields. -/
theorem pack_unpacked {x : Float} (hx : isFinite x = true) :
    UInt64.ofBitVec (pack Format.binary64 (unpacked (signOf x) (rank x))) = x.toBits := by
  rw [← unpack_toBits hx, pack_unpack_of_valid (valid_of_le (isFinite_iff.mp hx).le)]

theorem signOf_ofRank (negative : Bool) {k : Nat} (hk : k < infinityRank) :
    signOf (ofRank negative k) = if negative then .negative else .positive := by
  rw [signOf, isNegative_ofRank _ hk.le]

theorem neg_unpacked (s : Sign) (k : Nat) : (unpacked s k).neg = unpacked (-s) k := by
  rw [unpacked, unpacked]
  split <;> rfl

theorem abs_unpacked (s : Sign) (k : Nat) : (unpacked s k).abs = unpacked .positive k := by
  rw [unpacked, unpacked]
  split <;> rfl

/-- **Changing the sign of a double** leaves its rank as it is. -/
theorem neg_ofRank (negative : Bool) {k : Nat} (hk : k < infinityRank) :
    -ofRank negative k = ofRank (!negative) k := by
  have hpacked := pack_unpacked (isFinite_ofRank (!negative) hk)
  rw [rank_ofRank _ hk.le, signOf_ofRank _ hk] at hpacked
  have hsign : -(if negative then Sign.negative else .positive)
      = if !negative then Sign.negative else .positive := by
    cases negative <;> rfl
  apply Float.toBits_inj.mp
  show UInt64.ofBitVec (pack Format.binary64
    (unpack Format.binary64 (ofRank negative k).toBits.toBitVec).neg) = _
  rw [unpack_toBits (isFinite_ofRank negative hk), rank_ofRank _ hk.le, signOf_ofRank _ hk,
    neg_unpacked, hsign, hpacked]

/-- **A double without its sign** is the one of its rank. -/
theorem abs_eq_ofRank {x : Float} (hx : isFinite x = true) : x.abs = ofRank false (rank x) := by
  have hk := isFinite_iff.mp hx
  have hpacked := pack_unpacked (isFinite_ofRank false hk)
  rw [rank_ofRank _ hk.le, signOf_ofRank _ hk] at hpacked
  apply Float.toBits_inj.mp
  show UInt64.ofBitVec (pack Format.binary64 (unpack Format.binary64 x.toBits.toBitVec).abs) = _
  rw [unpack_toBits hx, abs_unpacked]
  exact hpacked

end Calculator.Double
