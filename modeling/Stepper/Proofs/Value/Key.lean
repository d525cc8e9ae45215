import Stepper.Value

/-!
# Keys

What a value is as a key of a dict, apart from the other values that match it.

* `Key`, `Value.key?`: truth values are numbers, and functions are the places of their definitions.
  Containers are no keys, and floats and methods are none here: a whole number can match two floats
  that differ, and a method matches nothing.
* `Value.sameKey_eq`: two values match if they are the same key, so matching is an equivalence.
* `Value.sameKey_self`: what may be a key matches itself, if it is neither a NaN nor a method.
* `Value.sameKey_float_of_isNaN`: a NaN matches nothing.
-/

namespace Stepper

/-- A key of a dict, up to the values that match it: `True` is `int 1`. -/
inductive Key where
  | none
  | int (n : Int64)
  | str (s : String)
  | range (r : Range)
  | function (loc : Location)
  | builtin (b : Builtin)
  deriving DecidableEq

namespace Value

/-- The key that a value is, unless it is a container, a float or a method. -/
def key? : Value → Option Key
  | none => some .none
  | bool b => some (.int (if b then 1 else 0))
  | int n => some (.int n)
  | str s => some (.str s)
  | range r => some (.range r)
  | function f => some (.function f.loc)
  | builtin b => some (.builtin b)
  | float _ | list _ | dict _ | method _ _ => Option.none

variable {a b : Value}

/-- Two values `a` and `b` that are keys match if they are the same key. -/
theorem sameKey_iff (ha : a.key?.isSome) (hb : b.key?.isSome) : a.sameKey b ↔ a.key? = b.key? := by
  cases a <;> cases b <;> simp_all [key?, sameKey, number?, Number.same]

theorem sameKey_eq (ha : a.key?.isSome) (hb : b.key?.isSome) :
    a.sameKey b = decide (a.key? = b.key?) := by
  rw [Bool.eq_iff_iff, sameKey_iff ha hb, decide_eq_true_iff]

end Value

/-! ## Floats -/

/-- A float `x` is equal to itself unless it is a NaN. -/
theorem float_beq_self (x : Float) : (x == x) = !x.isNaN := by
  change x.toModel.unpack.beq x.toModel.unpack = !x.toModel.unpack.isNaN
  generalize x.toModel.unpack = unpacked
  unfold Float.Model.UnpackedFloat.beq Float.Model.UnpackedFloat.isNaN
  cases unpacked with
  | notANumber => rfl
  | infinity sign => cases sign <;> rfl
  | zero sign => rfl
  | finite sign mantissa exponent =>
    have hsame : (compare exponent exponent).then (compare mantissa mantissa) = .eq := by
      rw [Std.ReflOrd.compare_self, Std.ReflOrd.compare_self]
      rfl
    cases sign with
    | positive => exact congrArg (some · == some Ordering.eq) hsame
    | negative => exact congrArg (fun order => some order.swap == some Ordering.eq) hsame

/-- No float `x` is equal to a NaN `y`. -/
theorem float_beq_of_isNaN (x : Float) {y : Float} (hy : y.isNaN) : (x == y) = false := by
  change x.toModel.unpack.beq y.toModel.unpack = false
  change y.toModel.unpack.isNaN = true at hy
  generalize x.toModel.unpack = unpacked
  generalize y.toModel.unpack = other at hy ⊢
  cases other with
  | notANumber => cases unpacked <;> rfl
  | infinity | zero | finite => cases hy

namespace Value

/-- What may be a key `k` matches itself, unless it is a NaN or a method. -/
theorem sameKey_self {k : Value} (hhashable : k.isHashable)
    (hfloat : ∀ x, k = float x → x.isNaN = false) (hmethod : ∀ receiver m, k ≠ method receiver m) :
    k.sameKey k := by
  cases k with
  | float x =>
    change (x == x) = true
    rw [float_beq_self, hfloat x rfl, Bool.not_false]
  | list | dict => cases hhashable
  | method receiver m => exact absurd rfl (hmethod receiver m)
  | none => rfl
  | bool | int | str | range | function | builtin => exact beq_self_eq_true _

/-- Nothing matches a NaN `x`. -/
theorem sameKey_float_of_isNaN (a : Value) {x : Float} (hx : x.isNaN) :
    a.sameKey (float x) = false := by
  cases a with
  | bool | int | float => exact float_beq_of_isNaN _ hx
  | _ => rfl

end Value

end Stepper
