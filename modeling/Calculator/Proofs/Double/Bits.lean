import Calculator.Double
import Mathlib

/-!
# The bits of doubles

A double is a sign, an exponent and a mantissa packed into 64 bits. Only one of the patterns that are
no number is in use, and every other pattern is the pattern of exactly one double. So a double of a
sign and a rank has this sign and this rank, and turning the sign of a double twice gives it back.

* `valid_of_le` says which patterns are in use;
* `rank_ofRank` and `isNegative_ofRank` take apart what `ofRank` has put together, and `ofRank_rank` puts
  it together again;
* `eq_nan_of_lt_rank` says that one double is no number;
* `neg_neg` is the double change of sign, `beq_zero_iff` tells the zeros.

How a double is packed and unpacked is the subject of `Batteries.Data.Float.Lemmas`, which no part of
Mathlib imports but the whole.
-/

namespace Calculator.Double

open Float.Model (Format UnpackedFloat)
open Float.Model.UnpackedFloat (Sign pack unpack packComponents unpackSign unpackExponent
  unpackMantissa unpackExponent_def unpackMantissa_def pack_unpack_of_valid unpack_packedNaN
  unpackSign_packComponents unpackExponent_packComponents unpackMantissa_packComponents
  packComponents_unpackSign_unpackExponent_unpackMantissa packedNaN)

/-! ## A sign and a rank -/

theorem toNat_unpackExponent (b : BitVec Format.binary64.numBits) :
    (unpackExponent b).toNat = b.toNat / 2 ^ 52 % 2 ^ 11 := by
  rw [unpackExponent_def, BitVec.extractLsb'_toNat, Nat.shiftRight_eq_div_pow]

theorem toNat_unpackMantissa (b : BitVec Format.binary64.numBits) :
    (unpackMantissa b).toNat = b.toNat % 2 ^ 52 := by
  rw [unpackMantissa_def, BitVec.extractLsb'_toNat, Nat.shiftRight_zero]

/-- The patterns of numbers and infinities are in use. -/
theorem valid_of_le {bits : UInt64} (h : bits.toNat % signBit ≤ infinityRank) :
    Format.binary64.Valid bits.toBitVec := by
  refine ⟨fun he hm => absurd ?_ hm⟩
  have hexponent := congrArg BitVec.toNat he
  have hmantissa := toNat_unpackMantissa bits.toBitVec
  rw [toNat_unpackExponent] at hexponent
  apply BitVec.eq_of_toNat_eq
  rw [hmantissa]
  show bits.toNat % 2 ^ 52 = 0
  have hlast : bits.toNat / 2 ^ 52 % 2 ^ 11 = 2047 := hexponent
  have hsign : signBit = 2 ^ 63 := rfl
  have hinfinity : infinityRank = 2047 * 2 ^ 52 := rfl
  rw [hsign, hinfinity] at h
  omega

/-- A pattern in use is the pattern of a double. -/
theorem toBits_ofBits (bits : UInt64) (h : Format.binary64.Valid bits.toBitVec) :
    (Float.ofBits bits).toBits = bits := by
  show UInt64.ofBitVec (pack Format.binary64 (unpack Format.binary64 bits.toBitVec)) = bits
  rw [pack_unpack_of_valid h]

/-- The bits of the double of a sign and a rank. -/
theorem toNat_toBits_ofRank (negative : Bool) {k : Nat} (h : k ≤ infinityRank) :
    (ofRank negative k).toBits.toNat = if negative then signBit + k else k := by
  have hk : k < 2 ^ 63 := Nat.lt_of_le_of_lt h (by decide)
  have hbits : (UInt64.ofNat (if negative then signBit + k else k)).toNat
      = if negative then signBit + k else k := by
    rw [UInt64.toNat_ofNat', Nat.mod_eq_of_lt]
    cases negative <;> simp [signBit] <;> omega
  rw [ofRank, toBits_ofBits, hbits]
  apply valid_of_le
  rw [hbits]
  refine le_of_eq_of_le ?_ h
  cases negative <;> simp [signBit] <;> omega

/-- **The rank of the double of a rank.** -/
theorem rank_ofRank (negative : Bool) {k : Nat} (h : k ≤ infinityRank) :
    rank (ofRank negative k) = k := by
  have hk : k < 2 ^ 63 := Nat.lt_of_le_of_lt h (by decide)
  rw [rank, toNat_toBits_ofRank negative h]
  cases negative <;> simp [signBit] <;> omega

/-- **The sign of the double of a sign.** -/
theorem isNegative_ofRank (negative : Bool) {k : Nat} (h : k ≤ infinityRank) :
    isNegative (ofRank negative k) = negative := by
  have hk : k < 2 ^ 63 := Nat.lt_of_le_of_lt h (by decide)
  rw [isNegative, toNat_toBits_ofRank negative h]
  cases negative with
  | false => simpa [signBit] using hk
  | true => simp

/-- **A double is its sign and its rank**, unless it is no number. -/
theorem ofRank_rank {x : Float} (h : rank x ≤ infinityRank) : ofRank (isNegative x) (rank x) = x := by
  -- The sign bit and the rank below it are all the bits there are.
  have hbits : (ofRank (isNegative x) (rank x)).toBits.toNat = x.toBits.toNat := by
    rw [toNat_toBits_ofRank _ h, rank, isNegative]
    have hsign : signBit = 2 ^ 63 := rfl
    have hx : x.toBits.toNat < 2 ^ 64 := x.toBits.toNat_lt
    rw [hsign]
    by_cases hneg : 2 ^ 63 ≤ x.toBits.toNat
    · rw [if_pos (decide_eq_true hneg)]
      omega
    · rw [if_neg (by simpa using hneg)]
      omega
  exact Float.toBits_inj.mp (UInt64.toNat_inj.mp hbits)

/-- Behind the infinities one pattern is in use. -/
theorem toBitVec_eq_packedNaN {bits : UInt64} (hvalid : Format.binary64.Valid bits.toBitVec)
    (h : infinityRank < bits.toNat % signBit) : bits.toBitVec = packedNaN Format.binary64 := by
  have hsign : signBit = 2 ^ 63 := rfl
  have hinfinity : infinityRank = 2047 * 2 ^ 52 := rfl
  rw [hsign, hinfinity] at h
  refine hvalid.eq_packedNaN (BitVec.eq_of_toNat_eq ?_) fun hzero => ?_
  · rw [toNat_unpackExponent]
    show bits.toNat / 2 ^ 52 % 2 ^ 11 = 2047
    omega
  · have hmantissa := toNat_unpackMantissa bits.toBitVec
    rw [hzero] at hmantissa
    have hwhole : 0 = bits.toNat % 2 ^ 52 := hmantissa
    omega

/-- **There is one undefined number**: all that is neither a number nor an infinity is `0 / 0`. -/
theorem eq_nan_of_lt_rank {x : Float} (h : infinityRank < rank x) : x = 0.0 / 0.0 := by
  obtain ⟨⟨bits, hvalid⟩⟩ := x
  have hbits : bits.toBitVec = packedNaN Format.binary64 := toBitVec_eq_packedNaN hvalid h
  apply Float.toBits_inj.mp
  show bits = _
  rw [← UInt64.toBitVec_inj, hbits]
  decide +kernel
/-- The finite doubles are those before the infinities. -/
theorem isFinite_iff {x : Float} : isFinite x = true ↔ rank x < infinityRank :=
  decide_eq_true_iff

theorem isFinite_ofRank (negative : Bool) {k : Nat} (h : k < infinityRank) :
    isFinite (ofRank negative k) = true := by
  rwa [isFinite_iff, rank_ofRank negative h.le]

/-! ## The change of sign -/

/-- Turning the sign of what a pattern is unpacked to is turning the sign of the pattern. -/
theorem neg_unpack_packComponents (s : Sign) (e : BitVec 11) (m : BitVec 52) :
    (unpack Format.binary64 (packComponents Format.binary64 s e m)).neg
      = unpack Format.binary64 (packComponents Format.binary64 (-s) e m) := by
  simp only [unpack, unpackMantissa_packComponents, unpackExponent_packComponents,
    unpackSign_packComponents, Sign.ofBitVec_toBitVec]
  split
  · split <;> rfl
  · split
    · split <;> rfl
    · rfl

/-- A number with its sign turned has a pattern in use, too. -/
theorem exists_unpack_eq_neg (b : BitVec Format.binary64.numBits) (hb : Format.binary64.Valid b) :
    ∃ b', Format.binary64.Valid b' ∧ unpack Format.binary64 b' = (unpack Format.binary64 b).neg := by
  by_cases h : unpackExponent b = -1#11 ∧ unpackMantissa b ≠ 0#52
  · -- What is no number has one pattern for both signs.
    refine ⟨b, hb, ?_⟩
    rw [hb.eq_packedNaN h.1 h.2, unpack_packedNaN]
    rfl
  · refine ⟨packComponents Format.binary64 (-Sign.ofBitVec (unpackSign b)) (unpackExponent b)
      (unpackMantissa b), ⟨fun he hm => absurd ?_ h⟩, ?_⟩
    · rw [unpackExponent_packComponents] at he
      rw [unpackMantissa_packComponents] at hm
      exact ⟨he, hm⟩
    · rw [← neg_unpack_packComponents, packComponents_unpackSign_unpackExponent_unpackMantissa]

theorem unpacked_neg_neg (u : UnpackedFloat) : u.neg.neg = u := by
  rcases u with ⟨s⟩ | _ | ⟨s⟩ | ⟨s, m, e, h⟩
  case notANumber => rfl
  all_goals cases s <;> rfl

/-- **Turning the sign twice** gives a double back, bit for bit. -/
theorem neg_neg (x : Float) : -(-x) = x := by
  obtain ⟨⟨bits, hvalid⟩⟩ := x
  obtain ⟨b, hb, hneg⟩ := exists_unpack_eq_neg bits.toBitVec hvalid
  apply Float.toBits_inj.mp
  show UInt64.ofBitVec (pack Format.binary64 (unpack Format.binary64
    (pack Format.binary64 (unpack Format.binary64 bits.toBitVec).neg)).neg) = bits
  rw [← hneg, pack_unpack_of_valid hb, hneg, unpacked_neg_neg, pack_unpack_of_valid hvalid]

/-! ## The zeros -/

/-- Only a zero compares equal to a zero. -/
theorem exists_zero_of_beq {u : UnpackedFloat} {s : Sign} (h : u.beq (.zero s) = true) :
    ∃ s', u = .zero s' := by
  rcases u with ⟨⟨⟩⟩ | _ | ⟨s'⟩ | ⟨⟨⟩, m, e, hm⟩
  case zero => exact ⟨s', rfl⟩
  all_goals cases h

/-- **Both zeros** compare equal to zero, and nothing else does. -/
theorem beq_zero_iff {x : Float} : (x == 0.0) = true ↔ x = 0.0 ∨ x = -0.0 := by
  constructor
  · intro h
    obtain ⟨⟨bits, hvalid⟩⟩ := x
    have hzero : unpack Format.binary64 (0.0 : Float).toBits.toBitVec = .zero .positive := rfl
    have hbeq : (unpack Format.binary64 bits.toBitVec).beq
        (unpack Format.binary64 (0.0 : Float).toBits.toBitVec) = true := h
    rw [hzero] at hbeq
    obtain ⟨s, hs⟩ := exists_zero_of_beq hbeq
    -- A zero has one pattern for each sign.
    have hbits := pack_unpack_of_valid hvalid
    rw [hs] at hbits
    cases s with
    | positive => exact .inl (Float.toBits_inj.mp (congrArg UInt64.ofBitVec hbits).symm)
    | negative => exact .inr (Float.toBits_inj.mp (congrArg UInt64.ofBitVec hbits).symm)
  · rintro (rfl | rfl) <;> decide +kernel

end Calculator.Double
