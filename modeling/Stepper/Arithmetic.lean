import Stepper.Fault
import Stepper.Number.Remainder

/-!
# Arithmetic

* `Arithmetic.whole`: operations on whole numbers. The result is exact, or the fault
  `integerRange` where it has no 64 bits. Quotient and remainder round down, so the remainder has
  the sign of the divisor.
* `Arithmetic.powerTimes?`: a power, by squaring.
* `Arithmetic.floorQuotient?`, `Arithmetic.floorRest`: a division rounded toward zero, corrected
  where that went up.
* `Arithmetic.float`: the same operations on floats.
* `Arithmetic.numbers`: whole numbers are combined as such, and any other two as floats.
-/

namespace Stepper.Arithmetic

/-- The number of `result`, or an `OverflowError` if it is `none`. -/
def inRange (result : Option Int64) : Except Fault Number :=
  match result with
  | some n => .ok (.int n)
  | none => .error .integerRange

/-- The whole number `n`, or an `OverflowError` if it does not fit into 64 bits. -/
def exact (n : Int) : Except Fault Number :=
  inRange (Number.int64OfInt? n)

/-- The product `a * b`, if it is in range. -/
def product? (a b : Int64) : Option Int64 :=
  Number.int64OfInt? (a.toInt * b.toInt)

/-- The product `factor * base ^ exponent`, if every step on the way is in range. The `base` is
squared only as long as `exponent` needs another square. -/
def powerTimes? (factor base : Int64) (exponent : Nat) : Option Int64 :=
  if exponent = 0 then some factor
  else do
    let factor ← if exponent % 2 = 1 then product? factor base else some factor
    if exponent = 1 then return factor
    else powerTimes? factor (← product? base base) (exponent / 2)

/-- The `exponent`s for which `power?` calculates anything are below this. -/
def exponentLimit : Nat := 2 ^ 32

/-- The power `base ^ exponent`, if it is in range and `exponent` below `exponentLimit`. -/
def power? (base : Int64) (exponent : Nat) : Option Int64 :=
  if exponentLimit ≤ exponent then none else powerTimes? 1 base exponent

/-- Whether `a` and `b` have a quotient in range: `b` is not zero, and they are not the least number
and -1. -/
def divides (a b : Int64) : Bool :=
  b != 0 && !(a == Int64.minValue && b == -1)

/-- The quotient `a / b` rounded toward zero, if it is in range. -/
def quotient? (a b : Int64) : Option Int64 :=
  if divides a b then some (a / b) else none

/-- The rest `a % b` that `quotient? a b` leaves, if that is in range. -/
def rest? (a b : Int64) : Option Int64 :=
  if divides a b then some (a % b) else none

/-- Whether rounding `dividend / divisor` toward zero went up: some `rest` is left, and the signs
are different. -/
def wentUp (rest dividend divisor : Int64) : Bool :=
  rest != 0 && (decide (dividend < 0) != decide (divisor < 0))

/-- The quotient `a // b`, rounded down, if it is in range. -/
def floorQuotient? (a b : Int64) : Option Int64 := do
  let quotient ← quotient? a b
  return if wentUp (a % b) a b then quotient - 1 else quotient

/-- The rest `a % b` of the quotient rounded down. Where that quotient is out of range, nothing is
left. -/
def floorRest (a b : Int64) : Int64 :=
  let rest := (rest? a b).getD 0
  if wentUp rest rest b then rest + b else rest

/-- The operation `op` on whole numbers. -/
def whole (op : ArithOp) (a b : Int64) : Except Fault Number :=
  match op with
  | .add => exact (a.toInt + b.toInt)
  | .sub => exact (a.toInt - b.toInt)
  | .mul => exact (a.toInt * b.toInt)
  | .div =>
    if b = 0 then .error (.zeroDivision .quotient)
    else .ok (.float ((Number.int a).toFloat / (Number.int b).toFloat))
  | .floorDiv =>
    if b = 0 then .error (.zeroDivision .floorQuotient) else inRange (floorQuotient? a b)
  | .mod =>
    if b = 0 then .error (.zeroDivision .remainder) else .ok (.int (floorRest a b))
  | .pow =>
    if 0 ≤ b then inRange (power? a b.toInt.toNat)
    else if a = 0 then .error (.zeroDivision .power)
    else .ok (.float ((Number.int a).toFloat ^ (Number.int b).toFloat))

/-- The remainder of `x` and `y` with the sign of `y`. -/
def floorRemainder (x y : Float) : Float :=
  let r := Number.remainder x y
  if r != 0.0 && decide (r < 0.0) != decide (y < 0.0) then r + y else r

/-- The operation `op` on floats. -/
def float (op : ArithOp) (x y : Float) : Except Fault Number :=
  match op with
  | .add => .ok (.float (x + y))
  | .sub => .ok (.float (x - y))
  | .mul => .ok (.float (x * y))
  | .div => if y == 0.0 then .error (.zeroDivision .floatQuotient) else .ok (.float (x / y))
  | .floorDiv =>
    if y == 0.0 then .error (.zeroDivision .floatFloorQuotient)
    else .ok (.float (x / y).floor)
  | .mod =>
    if y == 0.0 then .error (.zeroDivision .floatRemainder)
    else .ok (.float (floorRemainder x y))
  | .pow =>
    if x == 0.0 && y < 0.0 then .error (.zeroDivision .power) else .ok (.float (x ^ y))

/-- The operation `op` on numbers: on whole numbers if both are whole, otherwise on floats. -/
def numbers (op : ArithOp) : Number → Number → Except Fault Number
  | .int a, .int b => whole op a b
  | a, b => float op a.toFloat b.toFloat

/-- The negative `-n`, or an `OverflowError`. -/
def negative (n : Int64) : Except Fault Number :=
  exact (-n.toInt)

/-- The absolute value of `n`, or an `OverflowError`. -/
def absolute (n : Int64) : Except Fault Number :=
  exact n.toInt.natAbs

end Stepper.Arithmetic
