/-!
# Floats as exact numbers

A finite float is `mantissa · 2 ^ exponent` with a sign.

* `Dyadic`: what a float stands for: not a number, an infinity, or a finite dyadic number.
* `Dyadic.ofFloat`: read off the bits.
* `Number.nearest`: the float nearest to a quotient of two natural numbers; of two that are
  equally near, the one with the even mantissa.
* `Number.rounded`: the same for a natural number, as a natural number.
-/

namespace Stepper

/-- A power is the core library's, also where a theory of monoids brings another one into scope. -/
@[default_instance 20000]
instance (priority := 2000) corePow [NatPow α] : Pow α Nat := instPowNat

/-- What a float stands for. -/
inductive Dyadic where
  | nan
  | infinite (negative : Bool)
  /-- The number `mantissa · 2 ^ exponent`, negated if `negative`. -/
  | finite (negative : Bool) (mantissa : Nat) (exponent : Int)

namespace Number

/-- Bits below the exponent field. -/
def fractionBits : Nat := 52

/-- The exponent of the last place of the smallest floats. -/
def leastExponent : Int := -1074

/-- The exponent field of the infinities and of what is not a number. -/
def topField : Nat := 0x7FF

end Number

open Number

/-- What `x` stands for, from the fields of its bits. -/
def Dyadic.ofFloat (x : Float) : Dyadic :=
  let bits := x.toBits.toNat
  let negative := bits / 2 ^ 63 == 1
  let field := bits / 2 ^ fractionBits % 2 ^ 11
  let fraction := bits % 2 ^ fractionBits
  if field = topField then
    if fraction = 0 then .infinite negative else .nan
  else if field = 0 then
    .finite negative fraction leastExponent
  else
    .finite negative (2 ^ fractionBits + fraction) (leastExponent + (field - 1 : Nat))

namespace Number

/-- The quotient `num / den` rounded to the nearest natural number, a tie to the even one. -/
def roundQuotient (num den : Nat) : Nat :=
  let quotient := num / den
  let twice := 2 * (num % den)
  if twice < den || (twice == den && quotient % 2 == 0) then quotient else quotient + 1

/-- The natural number that `n` becomes as a float, if floats had no bound: its first 53 bits are
kept, and the rest is rounded. -/
def rounded (n : Nat) : Nat :=
  if n < 2 ^ (fractionBits + 1) then n
  else
    let unit := 2 ^ (n.log2 - fractionBits)
    roundQuotient n unit * unit

/-- The exponent of the last place of the float nearest to `num / den`. It leaves 53 bits before
the last place, and is never below the least exponent. -/
def lastPlace (num den : Nat) : Int :=
  let guess : Int := (num.log2 : Int) - den.log2 - fractionBits
  let low := num * 2 ^ (-guess).toNat < 2 ^ fractionBits * den * 2 ^ guess.toNat
  max leastExponent (if low then guess - 1 else guess)

/-- The float with the sign `negative` and with `bits` below it. -/
def ofMagnitudeBits (negative : Bool) (bits : Nat) : Float :=
  Float.ofBits (UInt64.ofNat (bits + if negative then 2 ^ 63 else 0))

/-- The bits of an infinity, without its sign. -/
def infinityBits : Nat := topField * 2 ^ fractionBits

/-- The bits of the float nearest to `num / den`, without a sign. A rounded mantissa of 54 bits
carries into the exponent field, and what is too large is infinite. -/
def nearestBits (num den : Nat) : Nat :=
  if num = 0 then 0
  else
    let exponent := lastPlace num den
    let mantissa := roundQuotient (num * 2 ^ (-exponent).toNat) (den * 2 ^ exponent.toNat)
    min infinityBits ((exponent - leastExponent).toNat * 2 ^ fractionBits + mantissa)

/-- The float nearest to `num / den`, with the given sign. -/
def nearest (negative : Bool) (num den : Nat) : Float :=
  ofMagnitudeBits negative (nearestBits num den)

/-- The float that is not a number. -/
def notANumber : Float := Float.ofBits 0x7FF8000000000000

end Number

end Stepper
