import Stepper.Number.Dyadic
import Stepper.Text.Letters

/-!
# Reading numbers

* `Number.natural?`: a number written in decimal digits alone.
* `Number.short?`: the same, of no more digits than a number of 64 bits may have.
* `Number.int64?`, `Number.word64?`: a signed and an unsigned 64-bit number, with an optional sign.
* `Number.exponentOf`: the exponent of a float, of which only so many digits are read.
* `Number.decimalFloat`: the float nearest to `digits · 10 ^ exponent`.
* `Number.float?`: a float in decimal notation, an infinity, or `nan` in any case.
-/

namespace Stepper.Number

/-- The value of the decimal digit `c`. -/
def digitValue (c : Char) : Nat :=
  c.toNat - 48

/-- The number that the `digits` write, after `n` which has already been read. -/
def ofDigitsFrom (n : Nat) (digits : List Char) : Nat :=
  digits.foldl (fun n c => 10 * n + digitValue c) n

/-- The number that the digits write. -/
def ofDigits (digits : List Char) : Nat :=
  ofDigitsFrom 0 digits

/-- The number that `cs` write, if they are decimal digits and at least one. -/
def natural? (cs : List Char) : Option Nat :=
  if cs.isEmpty || !cs.all Text.isAsciiDigit then none else some (ofDigits cs)

/-- The most digits of a number of 64 bits. -/
def wordDigits : Nat := 20

/-- The number that `cs` write, if they are decimal digits and at least one, and leading zeros aside
no more than `wordDigits`. -/
def short? (cs : List Char) : Option Nat :=
  if wordDigits < (cs.dropWhile (· = '0')).length then none else natural? cs

/-- The number that the digits write after `n`. No digit is read once the number has reached the
bound. -/
def ofDigitsUpTo (bound n : Nat) : List Char → Nat
  | [] => n
  | c :: rest => if n < bound then ofDigitsUpTo bound (10 * n + digitValue c) rest else n

/-- The exponent of a float is read up to the digit with which it reaches `2 ^ 16`. -/
def exponentBound : Nat := 2 ^ 16

/-- The exponent that the `digits` write, negated if `negative`. -/
def exponentOf (negative : Bool) (digits : List Char) : Int :=
  let n := ofDigitsUpTo exponentBound 0 digits
  if negative then -(n : Int) else n

/-- A sign, if there is one, and what follows: `true` stands for minus. -/
def sign : List Char → Bool × List Char
  | '+' :: rest => (false, rest)
  | '-' :: rest => (true, rest)
  | cs => (false, cs)

/-- The whole number `n` as a signed 64-bit number, if it is in range. -/
def int64OfInt? (n : Int) : Option Int64 :=
  if -2 ^ 63 ≤ n ∧ n < 2 ^ 63 then some (Int64.ofInt n) else none

/-- A signed 64-bit number: an optional sign and decimal digits, and nothing else in `cs`. -/
def int64? (cs : List Char) : Option Int64 :=
  let (negative, digits) := sign cs
  (short? digits).bind fun n => int64OfInt? (if negative then -(n : Int) else n)

/-- An unsigned 64-bit number: an optional plus sign and decimal digits, and nothing else in
`cs`. -/
def word64? (cs : List Char) : Option Nat :=
  let digits :=
    match cs with
    | '+' :: rest => rest
    | _ => cs
  (short? digits).filter (· < 2 ^ 64)

/-- No float is at or beyond `10 ^ decimalBound`, nor as far below one, except zero. -/
def decimalBound : Int := 400

/-- How many digits are read one by one. The middle between two floats has fewer than this, so of
the digits after them it only matters whether they are all zero. -/
def significantDigits : Nat := 800

/-- At most `significantDigits + 1` digits of a number that is nearest to the same float as the one
of `digits`, without leading zeros, and how many digits fewer they are. -/
def shorten (digits : List Char) : List Char × Nat :=
  let kept := digits.take significantDigits
  let rest := digits.drop significantDigits
  if rest.all (· = '0') then (kept, rest.length) else (kept ++ ['1'], rest.length - 1)

/-- The float nearest to `digits · 10 ^ exponent`. The number is below `10 ^ place`, where `place`
counts the digits after leading zeros as well, and not below a tenth of it. Beyond the floats the
result is infinite or zero, whatever the digits are. -/
def decimalFloat (negative : Bool) (digits : List Char) (exponent : Int) : Float :=
  let digits := digits.dropWhile (· = '0')
  let place := exponent + digits.length
  if digits.isEmpty || place < -decimalBound then ofMagnitudeBits negative 0
  else if decimalBound < place then ofMagnitudeBits negative infinityBits
  else
    let (digits, dropped) := shorten digits
    let exponent := exponent + dropped
    nearest negative (ofDigits digits * 10 ^ exponent.toNat) (10 ^ (-exponent).toNat)

/-- The exponent part of a float: nothing, or `e`, an optional sign and digits. -/
def exponentPart? : List Char → Option Int
  | [] => some 0
  | e :: rest =>
    if e = 'e' || e = 'E' then
      let (negative, digits) := sign rest
      if digits.isEmpty || !digits.all Text.isAsciiDigit then none
      else some (exponentOf negative digits)
    else
      none

/-- A float without its sign: digits with at most one point, at least one digit, and an optional
exponent, and nothing else in `cs`. -/
def unsignedFloat? (negative : Bool) (cs : List Char) : Option Float :=
  let whole := cs.takeWhile Text.isAsciiDigit
  let rest := cs.dropWhile Text.isAsciiDigit
  let (fraction, rest) :=
    match rest with
    | '.' :: after => (after.takeWhile Text.isAsciiDigit, after.dropWhile Text.isAsciiDigit)
    | _ => ([], rest)
  if whole.isEmpty && fraction.isEmpty then none
  else
    (exponentPart? rest).map fun exponent =>
      decimalFloat negative (whole ++ fraction) (exponent - fraction.length)

/-- A float: an optional sign, then `inf`, `infinity` or `nan` in any case, or a decimal. -/
def float? (cs : List Char) : Option Float :=
  let (negative, rest) := sign cs
  let word := String.ofList (rest.map Char.toLower)
  if word = "inf" || word = "infinity" then some (ofMagnitudeBits negative infinityBits)
  else if word = "nan" then some notANumber
  else unsignedFloat? negative rest

end Stepper.Number
