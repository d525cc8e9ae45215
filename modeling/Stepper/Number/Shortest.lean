import Stepper.Number.Dyadic

/-!
# Shortest decimal digits

The decimal digits of a float are the fewest that read back as the same float.

* `Shortest.Interval`: the numbers that round to a positive float, in units of a power of two.
* `Shortest.onGrid?`: the point of the grid `10 ^ place` in the interval that is nearest to the
  float; of two equally near, the larger.
* `Shortest.digits`: the point found on the coarsest grid that has one.
-/

namespace Stepper.Shortest

/-- A positive float and the numbers that round to it, in units of `2 ^ unit`. -/
structure Interval where
  low : Nat
  value : Nat
  high : Nat
  unit : Int
  /-- Whether the ends round to the float as well. -/
  closed : Bool

/-- The interval of `mantissa · 2 ^ exponent`. Halfway to a neighbour is its end; the neighbour
below a power of two is half as far away as the one above. -/
def Interval.ofFinite (mantissa : Nat) (exponent : Int) : Interval where
  low := 4 * mantissa - if mantissa = 2 ^ Number.fractionBits then 1 else 2
  value := 4 * mantissa
  high := 4 * mantissa + 2
  unit := exponent - 2
  closed := mantissa % 2 == 0

/-- The scale that makes units of the interval comparable with multiples of `10 ^ place`: a
number `n` of units equals `n * scale.1 / scale.2` points of the grid. -/
def Interval.scale (i : Interval) (place : Int) : Nat × Nat :=
  (2 ^ i.unit.toNat * 10 ^ (-place).toNat, 2 ^ (-i.unit).toNat * 10 ^ place.toNat)

/-- The multiple of `10 ^ place` that is in the interval and nearest to the float. -/
def onGrid? (i : Interval) (place : Int) : Option Nat :=
  let (up, step) := i.scale place
  let value := i.value * up
  let below := value / step
  let inside (point : Nat) : Bool :=
    let p := point * step
    if i.closed then i.low * up ≤ p && p ≤ i.high * up else i.low * up < p && p < i.high * up
  match inside below, inside (below + 1) with
  | true, true => some (if value % step * 2 < step then below else below + 1)
  | true, false => some below
  | false, true => some (below + 1)
  | false, false => none

/-- A place above the first digit of every number in `i`. -/
def Interval.firstPlace (i : Interval) : Int :=
  ((i.high.log2 : Int) + 1 + i.unit) * 30103 / 100000 + 2

/-- How many places are tried: a float of 53 bits is met on one of them. -/
def placeCount : Nat := 24

/-- The digits of `mantissa · 2 ^ exponent`, as a number, and the place of the last one: the
coarsest grid with a point in the interval. -/
def digits (mantissa : Nat) (exponent : Int) : Nat × Int :=
  let i := Interval.ofFinite mantissa exponent
  ((List.range placeCount).findSome? fun (step : Nat) =>
    let place := i.firstPlace - (step : Int)
    (onGrid? i place).map fun point => (point, place)).getD (0, 0)

end Stepper.Shortest
