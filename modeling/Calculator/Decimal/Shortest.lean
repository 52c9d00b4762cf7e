import Calculator.Double
import Calculator.Decimal.Basic

/-!
# The shortest decimal of a double

The numbers that round to a double fill an interval around it, which reaches halfway to each of its
neighbours. The shortest decimal of the double is the point of that interval on the coarsest grid of
multiples of a power of ten that has one, and of two such points the one nearer to the double. All
magnitudes are counted in units of `10⁻¹⁰⁷⁴`, of which every double is a whole number.

* `fineUnits` is the magnitude of a rank, `roundsTo` the interval, in halves of a unit;
* `gridPoint?` is the nearest point of the interval on a grid;
* `shortest` is the shortest decimal.
-/

namespace Calculator

open Double (units)

/-- The magnitude of rank `k` in units of `10⁻¹⁰⁷⁴`. -/
def fineUnits (k : Nat) : Nat :=
  units k * Nat.pow 5 1074

/-- Whether the number of `n` units of `10⁻¹⁰⁷⁴` rounds to rank `k`. The middle between two doubles
rounds to the even rank. -/
def roundsTo (k n : Nat) : Bool :=
  let lower := fineUnits (k - 1) + fineUnits k
  let upper := fineUnits k + fineUnits (k + 1)
  if k % 2 = 0 then lower ≤ 2 * n && 2 * n ≤ upper else lower < 2 * n && 2 * n < upper

/-- The coefficient of the multiple of `10 ^ g` units that rounds to rank `k` and is nearest to it,
if there is one; of two equally near the larger. Only the two multiples around the double need a
look: if any lies in the interval, so does one of these. -/
def gridPoint? (k g : Nat) : Option Nat :=
  let grid := tenPow g
  let below := fineUnits k / grid
  let above := below + 1
  let fitsBelow := roundsTo k (below * grid)
  let fitsAbove := roundsTo k (above * grid)
  if fitsAbove && (!fitsBelow || grid ≤ 2 * (fineUnits k % grid)) then some above
  else if fitsBelow then some below
  else none

/-- The coefficient and the grid of the coarsest point that rounds to rank `k`, no coarser than
`10 ^ g`. On the finest grid the double itself is a point. -/
def coarsestPoint (k : Nat) : Nat → Nat × Nat
  | 0 => (fineUnits k, 0)
  | g + 1 =>
    match gridPoint? k (g + 1) with
    | some c => (c, g + 1)
    | none => coarsestPoint k g

/-- A grid too coarse to have a point of the interval: as `2⁹³ < 10²⁸`, a number of `b` bits has at
most `b · 28 / 93 + 1` decimal digits. -/
def coarseGrid (k : Nat) : Nat :=
  ((fineUnits (k + 1)).log2 + 1) * 28 / 93 + 1

/-- The shortest decimal that rounds to the double of rank `k`, and among those the one nearest to
it. -/
def shortest (k : Nat) : Decimal :=
  let (coefficient, g) := coarsestPoint k (coarseGrid k)
  ⟨coefficient, g - 1074⟩

end Calculator
