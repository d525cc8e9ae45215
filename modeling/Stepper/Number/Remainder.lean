import Stepper.Number.Dyadic

/-!
# Remainders of floats

* `Number.remainder`: `x - n · y` for the whole number `n` nearest to `x / y` on the side of zero.
  The result is exact, and has the sign of `x`.
-/

namespace Stepper.Number

/-- The exact remainder of `x` by `y`, with the sign of `x`. -/
def remainder (x y : Float) : Float :=
  match Dyadic.ofFloat x, Dyadic.ofFloat y with
  | .finite negative m p, .finite _ n q =>
    if n = 0 then notANumber
    else
      let unit := min p q
      let rest := (m * 2 ^ (p - unit).toNat) % (n * 2 ^ (q - unit).toNat)
      nearest negative (rest * 2 ^ unit.toNat) (2 ^ (-unit).toNat)
  | .finite _ _ _, .infinite _ => x
  | _, _ => notANumber

end Stepper.Number
