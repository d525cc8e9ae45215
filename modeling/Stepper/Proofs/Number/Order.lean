import Mathlib
import Stepper.Number

/-!
# The order of numbers

* `floatOrder?_eq`: three comparisons of floats say what one comparison of their unpacked forms
  does, as that is turned around with its operands (`compare_swap`).
* `Number.isNaN_nearest`: what is rounded to a float is no NaN.
* `Number.isSome_order?`: two numbers have an order unless one of them is a NaN.

That bits are unpacked as they were packed (`pack_unpack_of_valid`) is a lemma that no smaller part
of the library holds.
-/

namespace Stepper

open Float.Model UnpackedFloat

/-! ## Unpacked floats -/

/-- With its operands swapped the comparison of `x` and `y` has the opposite outcome. -/
theorem compare_swap (x y : UnpackedFloat) : y.compare x = (x.compare y).map Ordering.swap := by
  have hmagnitude (m n : Nat) (d e : Int) :
      (compare e d).then (compare n m) = ((compare d e).then (compare m n)).swap := by
    rw [Ordering.swap_then, Std.OrientedOrd.eq_swap (a := e), Std.OrientedOrd.eq_swap (a := n)]
  cases x with
  | notANumber => cases y <;> rfl
  | infinity s =>
    cases y with
    | notANumber => rfl
    | infinity t => cases s <;> cases t <;> rfl
    | zero | finite => cases s <;> rfl
  | zero s =>
    cases y with
    | notANumber | zero => rfl
    | infinity t | finite t => cases t <;> rfl
  | finite s m d =>
    cases y with
    | notANumber => rfl
    | zero => cases s <;> rfl
    | infinity t => cases t <;> rfl
    | finite t n e =>
      cases s <;> cases t <;> simp [UnpackedFloat.compare, hmagnitude m n d e]

/-- Of `x` and `y`, only what is not a number has no order. -/
theorem isSome_compare (x y : UnpackedFloat) :
    (x.compare y).isSome = (!x.isNaN && !y.isNaN) := by
  cases x with
  | notANumber => cases y <;> rfl
  | infinity s =>
    cases y with
    | notANumber | infinity => rfl
    | zero | finite => cases s <;> rfl
  | zero s =>
    cases y with
    | notANumber | zero => rfl
    | infinity t | finite t => cases t <;> rfl
  | finite s =>
    cases y with
    | notANumber => rfl
    | zero => cases s <;> rfl
    | infinity t => cases t <;> rfl
    | finite t => cases s <;> cases t <;> rfl

/-! ## Floats -/

/-- The order of the floats `x` and `y` is that of their unpacked forms. -/
theorem floatOrder?_eq (x y : Float) :
    Number.floatOrder? x y = x.toModel.unpack.compare y.toModel.unpack := by
  have hlt (x y : Float) : x < y ↔ x.toModel.unpack.compare y.toModel.unpack = some .lt := by
    change decide ((x.toModel.unpack.compare y.toModel.unpack == some .lt) = true) = true ↔ _
    rw [decide_eq_true_iff, beq_iff_eq]
  have heq : (x == y) = (x.toModel.unpack.compare y.toModel.unpack == some .eq) := rfl
  rw [Number.floatOrder?]
  simp only [hlt, heq, compare_swap x.toModel.unpack y.toModel.unpack]
  cases x.toModel.unpack.compare y.toModel.unpack with
  | none => rfl
  | some order => cases order <;> rfl

/-- Bits that are not those of a NaN (`isNaNBits`) are read as a number. -/
theorem isNaN_ofBits {bits : UInt64}
    (hbits : @isNaNBits Format.binary64 bits.toBitVec = false) :
    (Float.ofBits bits).isNaN = false := by
  have hvalid : Format.binary64.Valid bits.toBitVec :=
    ⟨fun hexponent hmantissa => absurd hbits (by simp [isNaNBits, hexponent, hmantissa])⟩
  have hpacked : (Float.ofBits bits).toModel.toBits.toBitVec = bits.toBitVec :=
    pack_unpack_of_valid hvalid
  change (unpack Format.binary64 (Float.ofBits bits).toModel.toBits.toBitVec).isNaN = false
  rw [hpacked, Bool.eq_false_iff, ne_eq, isNaN_unpack_iff_of_valid hvalid]
  intro hnan
  rw [hnan, isNaNBits_packedNaN] at hbits
  cases hbits

namespace Number

theorem nearestBits_le (num den : Nat) : nearestBits num den ≤ infinityBits := by
  unfold nearestBits
  split
  · exact Nat.zero_le _
  · exact Nat.min_le_left ..

/-- What is rounded to the `nearest` float is at most an infinity: where the exponent field is full,
the fraction is empty. -/
theorem isNaN_nearest (negative : Bool) (num den : Nat) :
    (nearest negative num den).isNaN = false := by
  have hle : nearestBits num den ≤ 2047 * 2 ^ 52 := nearestBits_le num den
  rw [nearest, ofMagnitudeBits]
  generalize hword : UInt64.ofNat (nearestBits num den + if negative then 2 ^ 63 else 0) = word
  have hnat : word.toBitVec.toNat = nearestBits num den + if negative then 2 ^ 63 else 0 := by
    rw [← hword, UInt64.toNat_toBitVec, UInt64.toNat_ofNat']
    cases negative <;> simp <;> omega
  refine isNaN_ofBits ?_
  rw [isNaNBits, decide_eq_false_iff_not, unpackExponent_def, unpackMantissa_def]
  rintro ⟨hfield, hfraction⟩
  have hfield : word.toBitVec.toNat / 2 ^ 52 % 2 ^ 11 = 2047 := by
    simpa [BitVec.extractLsb'_toNat, Nat.shiftRight_eq_div_pow] using congrArg BitVec.toNat hfield
  -- With a full exponent field the bits are at least `2047 * 2 ^ 52`, and `hle` allows no more.
  have hempty : word.toBitVec.toNat % 2 ^ 52 = 0 := by
    rw [hnat] at hfield ⊢
    cases negative <;> simp at hfield ⊢ <;> omega
  refine hfraction (BitVec.eq_of_toNat_eq ?_)
  simpa [BitVec.extractLsb'_toNat] using hempty

/-- A whole number `n` is no NaN as a float. -/
theorem isNaN_toFloat_int (n : Int64) : (int n).toFloat.isNaN = false :=
  isNaN_nearest _ _ _

/-- Whether the number is a NaN. -/
def isNaN : Number → Bool
  | int _ => false
  | float x => x.isNaN

theorem isNaN_toFloat (m : Number) : m.toFloat.isNaN = m.isNaN := by
  cases m with
  | int n => exact isNaN_toFloat_int n
  | float x => rfl

/-- The numbers `m` and `n` have an order unless one of them is a NaN. -/
theorem isSome_order? (m n : Number) : (m.order? n).isSome = (!m.isNaN && !n.isNaN) := by
  have hfloat : (floatOrder? m.toFloat n.toFloat).isSome = (!m.isNaN && !n.isNaN) := by
    rw [floatOrder?_eq, isSome_compare, ← isNaN_toFloat m, ← isNaN_toFloat n]
    rfl
  cases m with
  | float x => exact hfloat
  | int a =>
    cases n with
    | float y => exact hfloat
    | int b => rfl

end Number

end Stepper
