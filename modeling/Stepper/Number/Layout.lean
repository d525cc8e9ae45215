import Stepper.Number.Shortest

/-!
# Decimal text of floats

* `FloatLayout`: the decisions of a format: which numbers are written in positions, and whether a
  whole number shows a point.
* `FloatLayout.render`: a float in a format, with the digits of `Shortest.digits`.
* `FloatLayout.value`: the format of script values. Exponents below -4 and from 16 up are written
  with `e`, a sign and at least two digits, and a whole number ends in `.0`.
* `FloatLayout.plain`: positions only, and no point after a whole number.
-/

namespace Stepper

/-- How floats are written. -/
structure FloatLayout where
  /-- Whether a number whose first digit has this exponent is written in positions. -/
  positional : Int → Bool
  /-- What follows the digits of a whole number. -/
  wholeEnd : List Char

namespace FloatLayout

/-- The decimal digits of `n`. -/
def digitsOf (n : Nat) : List Char :=
  Nat.toDigits 10 n

/-- Digits written in positions, the last of them at `place`. -/
def inPositions (layout : FloatLayout) (digits : List Char) (place : Int) : List Char :=
  if 0 ≤ place then
    digits ++ List.replicate place.toNat '0' ++ layout.wholeEnd
  else
    let after := (-place).toNat
    let padded := List.replicate (after + 1 - digits.length) '0' ++ digits
    let before := padded.length - after
    padded.take before ++ '.' :: padded.drop before

/-- The `digits` of a number with one of them before the point, and its `exponent` of at least two
digits. -/
def withExponent (digits : List Char) (exponent : Int) : List Char :=
  let mantissa :=
    match digits with
    | first :: second :: rest => first :: '.' :: second :: rest
    | short => short
  let magnitude := digitsOf exponent.natAbs
  let width := List.replicate (2 - magnitude.length) '0' ++ magnitude
  mantissa ++ 'e' :: (if exponent < 0 then '-' else '+') :: width

/-- The positive number `mantissa · 2 ^ exponent`. -/
def magnitude (layout : FloatLayout) (mantissa : Nat) (exponent : Int) : List Char :=
  let (number, place) := Shortest.digits mantissa exponent
  let digits := digitsOf number
  let leading := place + digits.length - 1
  if layout.positional leading then layout.inPositions digits place
  else withExponent digits leading

/-- The characters of `x`. -/
def chars (layout : FloatLayout) (x : Float) : List Char :=
  match Dyadic.ofFloat x with
  | .nan => ['n', 'a', 'n']
  | .infinite negative => if negative then ['-', 'i', 'n', 'f'] else ['i', 'n', 'f']
  | .finite negative mantissa exponent =>
    let text := if mantissa = 0 then '0' :: layout.wholeEnd else layout.magnitude mantissa exponent
    if negative then '-' :: text else text

/-- The text of `x`. -/
def render (layout : FloatLayout) (x : Float) : String :=
  String.ofList (layout.chars x)

/-- The format of script values. -/
def value : FloatLayout where
  positional exponent := -4 ≤ exponent && exponent < 16
  wholeEnd := ['.', '0']

/-- Positions only, as float tokens are shown in messages. -/
def plain : FloatLayout where
  positional _ := true
  wholeEnd := []

end FloatLayout

end Stepper
