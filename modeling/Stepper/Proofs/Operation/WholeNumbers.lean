import Mathlib.Algebra.Order.Ring.Abs
import Mathlib.Algebra.Order.Ring.Int
import Mathlib.Tactic.Linarith
import Mathlib.Tactic.Ring
import Stepper.Proofs.Operation.Results

/-!
# Operations on whole numbers

* `Operation.Exact`: an operation yields a whole number if this has 64 bits, and otherwise fails
  because it has not.
* `Arithmetic.powerTimes?_eq`: squaring finds every power in range. A product or a square on the way
  is out of range only if the power is.
* `whole_numbers_exact`: sums, differences, products, powers, negatives and absolute values are
  exact. Of the powers, those of -1, 0 and 1 with an exponent beyond the limit are left out: they
  are not calculated, although they are in range.
-/

namespace Stepper

namespace Number

theorem int64OfInt?_eq_some_iff {n : Int} {m : Int64} : int64OfInt? n = some m ↔ m.toInt = n := by
  have hlow := Int64.le_toInt m
  have hhigh := Int64.toInt_lt m
  unfold int64OfInt?
  constructor
  · intro h
    split at h
    · rename_i hn
      cases h
      exact Int64.toInt_ofInt_of_le hn.1 hn.2
    · cases h
  · rintro rfl
    rw [if_pos ⟨hlow, hhigh⟩, Int64.ofInt_toInt]

@[simp] theorem int64OfInt?_toInt (m : Int64) : int64OfInt? m.toInt = some m :=
  int64OfInt?_eq_some_iff.2 rfl

theorem int64OfInt?_eq_none_iff {n : Int} : int64OfInt? n = none ↔ n < -2 ^ 63 ∨ 2 ^ 63 ≤ n := by
  unfold int64OfInt?
  split
  · simp only [reduceCtorEq, false_iff]
    omega
  · simp only [true_iff]
    omega

/-- A number `n` out of range is so as well times a positive `c`. -/
theorem int64OfInt?_mul_of_pos {n c : Int} (h : int64OfInt? n = none) (hc : 0 < c) :
    int64OfInt? (n * c) = none := by
  rw [int64OfInt?_eq_none_iff] at h ⊢
  rcases h with hlow | hhigh
  · left
    nlinarith
  · right
    nlinarith

/-- A square `b * b` out of range is beyond it also with the sign changed, as 2⁶³ is no square. -/
theorem lt_square {b : Int} (h : int64OfInt? (b * b) = none) : 2 ^ 63 < b * b := by
  have hnonneg : 0 ≤ b * b := mul_self_nonneg b
  have hle : 2 ^ 63 ≤ b * b := by
    rcases int64OfInt?_eq_none_iff.1 h with hlow | hhigh
    · omega
    · exact hhigh
  -- the root of 2⁶³ lies between 3037000499 and the next number
  have hroot : 3037000500 ≤ |b| := by
    by_contra hsmall
    have hb : |b| ≤ 3037000499 := by omega
    have hsquare : |b| * |b| ≤ 3037000499 * 3037000499 :=
      mul_le_mul hb hb (abs_nonneg b) (by decide)
    rw [abs_mul_abs_self] at hsquare
    omega
  calc (2 ^ 63 : Int) < 3037000500 * 3037000500 := by decide
    _ ≤ |b| * |b| := mul_le_mul hroot hroot (by decide) (abs_nonneg b)
    _ = b * b := abs_mul_abs_self b

/-- A product of `c` with a square `b * b` out of range is out of range, unless `c` is zero. -/
theorem int64OfInt?_mul_square {b c : Int} (h : int64OfInt? (b * b) = none) (hc : c ≠ 0) :
    int64OfInt? (c * (b * b)) = none := by
  have hlt := lt_square h
  rw [int64OfInt?_eq_none_iff]
  rcases lt_or_gt_of_ne hc with hneg | hpos
  · left
    nlinarith
  · right
    nlinarith

end Number

/-! ## Powers by squaring -/

namespace Arithmetic

open Number

/-- One step: `factor` takes over `base` if `exponent` is odd, and what is left of the exponent goes
with the square of the base. -/
theorem powerTimes?_step {factor base : Int64} {exponent : Nat} (h : exponent ≠ 0) :
    powerTimes? factor base exponent =
      (int64OfInt? (factor.toInt * base.toInt ^ (exponent % 2))).bind fun factor =>
        if exponent = 1 then some factor
        else (product? base base).bind fun square => powerTimes? factor square (exponent / 2) := by
  rw [powerTimes?, if_neg h]
  rcases Nat.mod_two_eq_zero_or_one exponent with heven | hodd
  · simp [heven, Option.bind]
  · simp [hodd, product?, Option.bind]

/-- A power of `b` out of the factor `b` that is left over and the square `b * b`. -/
theorem factor_mul_pow (f b : Int) (exponent : Nat) :
    f * b ^ exponent = f * b ^ (exponent % 2) * (b * b) ^ (exponent / 2) := by
  conv_lhs => rw [← Nat.mod_add_div exponent 2, pow_add, pow_mul, pow_two]
  ring

/-- Squaring finds `factor * base ^ exponent` if that is in range, and nothing if it is not. The
induction is on `exponent`, which is halved. -/
theorem powerTimes?_eq {factor base : Int64} (exponent : Nat)
    (hfactor : base.toInt ≠ 0 → factor.toInt ≠ 0) :
    powerTimes? factor base exponent = int64OfInt? (factor.toInt * base.toInt ^ exponent) := by
  induction exponent using Nat.strongRecOn generalizing factor base with
  | ind exponent ih =>
    rcases eq_or_ne exponent 0 with rfl | hexponent
    · simp [powerTimes?]
    rw [powerTimes?_step hexponent, factor_mul_pow factor.toInt base.toInt exponent]
    cases hnext : int64OfInt? (factor.toInt * base.toInt ^ (exponent % 2)) with
    | none =>
      -- the base is not zero, so the powers of its square are positive
      have hbase : base.toInt ≠ 0 := by
        intro hzero
        rcases Nat.mod_two_eq_zero_or_one exponent with heven | hodd
        · simp [heven] at hnext
        · simp [hodd, hzero, int64OfInt?_eq_none_iff] at hnext
      have hpos : 0 < (base.toInt * base.toInt) ^ (exponent / 2) :=
        pow_pos (mul_self_pos.2 hbase) _
      rw [int64OfInt?_mul_of_pos hnext hpos]
      rfl
    | some next =>
      have hne (hbase : base.toInt ≠ 0) : next.toInt ≠ 0 := by
        rw [int64OfInt?_eq_some_iff.1 hnext]
        exact mul_ne_zero (hfactor hbase) (pow_ne_zero _ hbase)
      rw [← int64OfInt?_eq_some_iff.1 hnext, Option.bind_some]
      rcases eq_or_ne exponent 1 with rfl | hone
      · simp
      rw [if_neg hone, product?]
      obtain ⟨half, hhalf⟩ : ∃ half, exponent / 2 = half + 1 :=
        Nat.exists_eq_succ_of_ne_zero (by omega)
      cases hsquare : int64OfInt? (base.toInt * base.toInt) with
      | none =>
        -- the power needs this square, so it is out of range as well
        have hbase : base.toInt ≠ 0 := by
          intro hzero
          simp [hzero, int64OfInt?_eq_none_iff] at hsquare
        have hrest : next.toInt * (base.toInt * base.toInt) ^ half ≠ 0 :=
          mul_ne_zero (hne hbase) (pow_ne_zero _ (mul_self_ne_zero.2 hbase))
        rw [hhalf, pow_succ, ← mul_assoc, int64OfInt?_mul_square hsquare hrest]
        rfl
      | some square =>
        have hroot (h : square.toInt ≠ 0) : base.toInt ≠ 0 := by
          rw [int64OfInt?_eq_some_iff.1 hsquare] at h
          exact mul_self_ne_zero.1 h
        rw [← int64OfInt?_eq_some_iff.1 hsquare, Option.bind_some]
        exact ih _ (by omega) fun h => hne (hroot h)

/-- A base `b` of at least two leaves the range before the exponent reaches `64`. -/
theorem int64OfInt?_pow {b : Int} {exponent : Nat} (hbase : 1 < |b|) (hexponent : 64 ≤ exponent) :
    int64OfInt? (b ^ exponent) = none := by
  have hpow : 2 ^ 64 ≤ |b ^ exponent| := by
    calc (2 : Int) ^ 64 ≤ 2 ^ exponent := pow_le_pow_right₀ (by decide) hexponent
      _ ≤ |b| ^ exponent := pow_le_pow_left₀ (by decide) hbase exponent
      _ = |b ^ exponent| := (abs_pow b exponent).symm
  rw [int64OfInt?_eq_none_iff]
  rcases le_abs.1 hpow with hhigh | hlow
  · right
    omega
  · left
    omega

/-- Below `exponentLimit`, and beyond it for a `base` that leaves the range anyway, a power is found
if it is in range. -/
theorem power?_eq {base : Int64} {exponent : Nat}
    (h : exponent < exponentLimit ∨ 1 < |base.toInt|) :
    power? base exponent = int64OfInt? (base.toInt ^ exponent) := by
  unfold power?
  split
  · rename_i hlimit
    have hbase : 1 < |base.toInt| := h.resolve_left (Nat.not_lt.2 hlimit)
    rw [int64OfInt?_pow hbase (Nat.le_trans (by decide) hlimit)]
  · rw [powerTimes?_eq exponent fun _ => by decide, Int64.toInt_one, one_mul]

end Arithmetic

/-! ## Operators -/

namespace Operation

open Number

/-- The operation `op` yields the whole number `n` if this has 64 bits, and fails with
`integerRange` if it has not. -/
structure Exact (n : Int) (op : Operation Value) : Prop where
  yields_iff : ∀ m : Int64, op = pure (.int m) ↔ m.toInt = n
  fails_iff : op = fail .integerRange ↔ ∀ m : Int64, m.toInt ≠ n

theorem exact_of_inRange (n : Int) :
    Exact n (ofResult ((Arithmetic.inRange (int64OfInt? n)).map .ofNumber)) := by
  cases h : int64OfInt? n with
  | none =>
    have hne (m : Int64) : m.toInt ≠ n := by
      rintro rfl
      simp at h
    have hfails :
        ofResult ((Arithmetic.inRange none).map Value.ofNumber) = fail .integerRange := rfl
    rw [hfails]
    exact ⟨fun m => ⟨fun hm => absurd hm.symm pure_ne_fail, fun hm => absurd hm (hne m)⟩,
      ⟨fun _ => hne, fun _ => rfl⟩⟩
  | some k =>
    have hk := int64OfInt?_eq_some_iff.1 h
    have hyields :
        ofResult ((Arithmetic.inRange (some k)).map Value.ofNumber) = pure (.int k) := rfl
    rw [hyields]
    refine ⟨fun m => ?_, ⟨fun hfails => absurd hfails pure_ne_fail, fun hne => absurd hk (hne k)⟩⟩
    rw [pure_inj, Value.int.injEq, ← hk, Int64.toInt_inj]
    exact eq_comm

end Operation

open Operation

/-- A power of `a` with an exponent `b` of at least `2 ^ 32` is not calculated. -/
theorem pow_beyond_limit (a : Int64) {b : Int64} (hb : 2 ^ 32 ≤ b.toInt) :
    ArithOp.pow.apply (.int a) (.int b) = fail .integerRange := by
  have hnonneg : 0 ≤ b := by
    rw [Int64.le_iff_toInt_le, Int64.toInt_zero]
    omega
  have hlimit : Arithmetic.exponentLimit ≤ b.toInt.toNat := by
    have : Arithmetic.exponentLimit = 2 ^ 32 := rfl
    omega
  rw [ArithOp.apply_int, Arithmetic.whole, if_pos hnonneg, Arithmetic.power?, if_pos hlimit]
  rfl

/-- Sums, differences, products, powers, negatives and absolute values of whole numbers `a` and `b`
are `Exact`: the numbers themselves if they have 64 bits, and an `OverflowError` exactly if they
have not. A power must have an exponent below `2 ^ 32`, or a base that leaves the range beyond
it. -/
theorem whole_numbers_exact (a b : Int64) :
    Exact (a.toInt + b.toInt) (ArithOp.add.apply (.int a) (.int b)) ∧
    Exact (a.toInt - b.toInt) (ArithOp.sub.apply (.int a) (.int b)) ∧
    Exact (a.toInt * b.toInt) (ArithOp.mul.apply (.int a) (.int b)) ∧
    (0 ≤ b → b.toInt < 2 ^ 32 ∨ 1 < |a.toInt| →
      Exact (a.toInt ^ b.toInt.toNat) (ArithOp.pow.apply (.int a) (.int b))) ∧
    Exact (-a.toInt) (UnaryOp.neg.apply (.int a)) ∧
    Exact |a.toInt| ((·.1) <$> Builtin.abs.call [.int a] []) ∧
    Fault.integerRange.kind = .overflowError := by
  refine ⟨?add, ?sub, ?mul, ?pow, ?neg, ?abs, rfl⟩
  case add =>
    rw [ArithOp.apply_int]
    exact exact_of_inRange _
  case sub =>
    rw [ArithOp.apply_int]
    exact exact_of_inRange _
  case mul =>
    rw [ArithOp.apply_int]
    exact exact_of_inRange _
  case pow =>
    intro hb h
    have hlimit : b.toInt.toNat < Arithmetic.exponentLimit ∨ 1 < |a.toInt| := by
      have : Arithmetic.exponentLimit = 2 ^ 32 := rfl
      exact h.imp_left fun _ => by omega
    rw [ArithOp.apply_int, Arithmetic.whole, if_pos hb, Arithmetic.power?_eq hlimit]
    exact exact_of_inRange _
  case neg => exact exact_of_inRange _
  case abs =>
    rw [Builtin.call_value (by decide), Builtin.value, oneArgument_singleton, pure_bind,
      Int.abs_eq_natAbs]
    exact exact_of_inRange _

/-- The least number is `(-2) ** 63`: the square of its root leaves the range, but is not taken. -/
theorem whole_numbers_exact_least :
    (0 : Int64) ≤ 63 ∧ ((63 : Int64).toInt < 2 ^ 32 ∨ 1 < |(-2 : Int64).toInt|) ∧
      ArithOp.pow.apply (.int (-2)) (.int 63) = pure (.int Int64.minValue) := by
  have hnonneg : (0 : Int64) ≤ 63 := by decide
  have hlimit : (63 : Int64).toInt < 2 ^ 32 := by decide
  obtain ⟨-, -, -, hpow, -⟩ := whole_numbers_exact (-2) 63
  exact ⟨hnonneg, .inl hlimit, ((hpow hnonneg (.inl hlimit)).yields_iff _).2 (by decide)⟩

/-- The number `1` is a power of `1` with any exponent, but beyond the limit it counts as out of
range. -/
theorem power_of_one_refused :
    (1 : Int64).toInt ^ (4294967296 : Int64).toInt.toNat = (1 : Int64).toInt ∧
      ArithOp.pow.apply (.int 1) (.int 4294967296) = fail .integerRange ∧
      Fault.integerRange.kind = .overflowError := by
  refine ⟨?_, pow_beyond_limit 1 (by decide), rfl⟩
  rw [Int64.toInt_one, one_pow]

end Stepper
