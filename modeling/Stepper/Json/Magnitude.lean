import Stepper.Number.Reading

/-!
# The size of numbers in JSON

A number is read as floats are: the digits that fit in 64 bits make a whole number, and this is
multiplied by a power of ten. Both factors are rounded to floats, and so is their product.

* `Json.leading`: the number of the first digits.
* `Json.exponentOf`: the exponent that is written.
* `Json.isTooLarge`: whether the product is beyond the floats, although the number as it is written
  may just be below their bound.
-/

namespace Stepper.Json

/-- The number that digits write after `n`, as far as it fits in 64 bits, and how many digits are
left over. -/
def leading (n : Nat) : List Char → Nat × Nat
  | [] => (n, 0)
  | c :: rest =>
    if 10 * n + Number.digitValue c < 2 ^ 64 then leading (10 * n + Number.digitValue c) rest
    else (n, (c :: rest).length)

/-- An exponent is read up to the digit with which it reaches `2 ^ 31`. That is more than the digits
of any number can make up for. -/
def exponentBound : Nat := 2 ^ 31

/-- The exponent of a number, from the characters `cs` after its mark: an optional sign and
digits. -/
def exponentOf (cs : List Char) : Int :=
  let (negative, digits) := Number.sign cs
  let n := Number.ofDigitsUpTo exponentBound 0 digits
  if negative then -(n : Int) else n

/-- The largest power of ten that is a float: `10 ^ 308`, by its exponent. -/
def largestPower : Nat := 308

/-- The least power of two that is no float any more, `2 ^ 1024`. -/
def floatBound : Nat := 2 ^ 1024

/-- Whether the number `whole.fraction` times ten to `exponent` is too large for a float. -/
def isTooLarge (whole fraction : List Char) (exponent : Int) : Bool :=
  let (n, dropped) := leading 0 whole
  let (n, unused) := leading n fraction
  let place := exponent + dropped - (fraction.length - unused : Nat)
  n != 0 && 0 ≤ place &&
    (largestPower < place ||
      floatBound ≤ Number.rounded (Number.rounded n * Number.rounded (10 ^ place.toNat)))

end Stepper.Json
