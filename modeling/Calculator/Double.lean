/-!
# Doubles as ranked magnitudes

The non-negative doubles stand in one increasing row `0, 2⁻¹⁰⁷⁴, 2·2⁻¹⁰⁷⁴, …, ∞`. The place of a
double in it, its *rank*, is what its 64 bits spell once the sign bit is dropped. Every finite
magnitude is a whole number of units `2⁻¹⁰⁷⁴`, so questions about doubles become questions about
natural numbers.

* `rank` and `isNegative` take a double apart, `ofRank` puts it together;
* `units k` is the magnitude of rank `k`, in units of `2⁻¹⁰⁷⁴`;
* `infinityRank` is the first rank that is no finite number.
-/

namespace Calculator.Double

/-- How many doubles lie between a power of two and the next: `2⁵²`. -/
def binade : Nat := 1 <<< 52

/-- The rank of the infinities. Above it stand the values that are not numbers. -/
def infinityRank : Nat := 2047 * binade

/-- The bit that tells a negative double: `2⁶³`. -/
def signBit : Nat := 1 <<< 63

/-- The magnitude of rank `k`, counted in units of `2⁻¹⁰⁷⁴`. The spacing of the doubles doubles with
every binade from the second on, so the magnitude is a 53-bit number shifted by the doublings
passed. At `infinityRank` it gives the `2¹⁰²⁴` that the next finite double would be. -/
def units (k : Nat) : Nat :=
  let doublings := k / binade - 1
  (k - doublings * binade) <<< doublings

/-- The place of the magnitude of `x` among the doubles. -/
def rank (x : Float) : Nat :=
  x.toBits.toNat % signBit

/-- Whether the sign bit of `x` is set, which also tells `-0` from `0`. -/
def isNegative (x : Float) : Bool :=
  signBit ≤ x.toBits.toNat

/-- Whether `x` is a number: neither infinite nor undefined. -/
def isFinite (x : Float) : Bool :=
  rank x < infinityRank

/-- The double of a sign and a rank. -/
def ofRank (negative : Bool) (k : Nat) : Float :=
  Float.ofBits (UInt64.ofNat (if negative then signBit + k else k))

@[simp] theorem units_zero : units 0 = 0 := rfl

/-- The smallest positive double is the unit. -/
@[simp] theorem units_one : units 1 = 1 := rfl

/-- Below the second doubling a rank is its own magnitude. -/
theorem units_of_lt {k : Nat} (h : k < 2 * binade) : units k = k := by
  have : k / binade - 1 = 0 := by
    have := Nat.div_lt_of_lt_mul (Nat.mul_comm 2 binade ▸ h)
    omega
  simp [units, this]

end Calculator.Double
