import Stepper.Number.Reading

/-!
# Numbers of a script

* `Number`: a whole number of 64 bits with a sign, or a float.
* `Number.same`, `Number.order?`: equality and order. Two whole numbers are compared exactly, and
  any other two as floats, so that a NaN is not even equal to itself.
-/

namespace Stepper

/-- A number: whole, or a float. -/
inductive Number where
  | int (n : Int64)
  | float (x : Float)

namespace Number

/-- The float nearest to the number; `int n` may lie between two. -/
def toFloat : Number → Float
  | int n => nearest (n < 0) n.toInt.natAbs 1
  | float x => x

/-- Whether two numbers are equal: as whole numbers, or as floats if one is a float. -/
def same : Number → Number → Bool
  | int a, int b => a == b
  | a, b => a.toFloat == b.toFloat

/-- The order of `x` and `y`, unless one of them is a NaN. -/
def floatOrder? (x y : Float) : Option Ordering :=
  if x < y then some .lt
  else if x == y then some .eq
  else if y < x then some .gt
  else none

/-- The order of two numbers, unless one of them is a NaN. -/
def order? : Number → Number → Option Ordering
  | int a, int b => some (compareOfLessAndEq a b)
  | a, b => floatOrder? a.toFloat b.toFloat

end Number

end Stepper
