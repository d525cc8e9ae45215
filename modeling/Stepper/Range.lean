/-!
# Ranges

* `Range`: the whole numbers `start`, `start + step`, … that lie before `stop`, seen in the
  direction of the step.
* `Range.size`: how many they are. A range over all 64-bit numbers has more than a signed 64-bit
  number can count.
* `Range.item`: one of them. The sum is taken modulo 2⁶⁴, which changes nothing: the number asked
  for is one of the range and so fits.
* `Range.contains`: whether a number is one of them.
-/

namespace Stepper

/-- The numbers from `start` on, at distance `step`, that lie before `stop`. -/
structure Range where
  start : Int64
  stop : Int64
  step : Int64
  deriving DecidableEq

namespace Range

/-- How many numbers are in `r`; none if the step is zero. -/
def size (r : Range) : Nat :=
  let start := r.start.toInt
  let stop := r.stop.toInt
  let step := r.step.toInt
  if 0 < step ∧ start < stop then ((stop - start + step - 1) / step).toNat
  else if step < 0 ∧ stop < start then ((start - stop - step - 1) / -step).toNat
  else 0

/-- The number at position `i`, counted from zero: `start + step * i`. -/
def item (r : Range) (i : Nat) : Int64 :=
  r.start + r.step * Int64.ofNat i

/-- The numbers of `r`, in order. -/
def toList (r : Range) : List Int64 :=
  (List.range r.size).map r.item

/-- Whether `n` lies between the ends of `r`. -/
def bounds (r : Range) (n : Int64) : Bool :=
  if 0 < r.step then r.start ≤ n && n < r.stop else n ≤ r.start && r.stop < n

/-- Whether `n` is one of the numbers of `r`. -/
def contains (r : Range) (n : Int64) : Bool :=
  r.bounds n && 0 < r.size && (n.toInt - r.start.toInt) % r.step.toInt == 0

end Range

end Stepper
