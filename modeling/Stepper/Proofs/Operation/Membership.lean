import Mathlib.Data.Set.Card
import Stepper.Proofs.Operation.Range

/-!
# Membership in a range

* `Range.encard_before`, `Range.size_lt`: how many numbers of a progression come before its end, and
  that 64 bits can count them.
* `Range.contains_iff`: the bounds and the remainder decide whether a number is one of the range.
* `Operation.member_range`, `Operation.equals_int`: membership and equality of whole numbers and
  truth values.
* `Range.arithmetic_exact`: size, items and membership are about the same numbers.
-/

namespace Stepper

variable {r : Range} {n : Int64} {needle : Value}

namespace Range

theorem toInt_step_ne_zero (hstep : r.step ≠ 0) : r.step.toInt ≠ 0 :=
  fun h => hstep (Int64.toInt_inj.1 (h.trans Int64.toInt_zero.symm))

/-! ## The size -/

/-- The size of `r` is the number of the places whose numbers come before the end. -/
theorem encard_before (hstep : r.step.toInt ≠ 0) :
    {i | r.Before (r.term i)}.encard = r.size := by
  have hplaces : {i | r.Before (r.term i)} = {i | i < r.size} :=
    Set.ext fun i => (lt_size_iff hstep).symm
  rw [hplaces, Set.Nat.encard_range]

/-- The numbers of `r` are at least one apart and have 64 bits, so `2 ^ 64` is more than they
are. -/
theorem size_lt (hstep : r.step.toInt ≠ 0) : r.size < 2 ^ 64 := by
  by_contra hsize
  have hbefore : r.Before (r.term (2 ^ 64 - 1)) := (lt_size_iff hstep).1 (by omega)
  have hstart := And.intro (Int64.le_toInt r.start) (Int64.toInt_lt r.start)
  have hstop := And.intro (Int64.le_toInt r.stop) (Int64.toInt_lt r.stop)
  unfold Before term at hbefore
  split at hbefore <;> omega

/-! ## Membership -/

theorem bounds_iff : r.bounds n = true ↔
    (if 0 < r.step.toInt then r.start.toInt ≤ n.toInt else n.toInt ≤ r.start.toInt) ∧
      r.Before n.toInt := by
  have hpos : 0 < r.step ↔ 0 < r.step.toInt := by rw [Int64.lt_iff_toInt_lt, Int64.toInt_zero]
  unfold bounds Before
  simp only [hpos]
  split <;> simp [Int64.lt_iff_toInt_lt, Int64.le_iff_toInt_le]

/-- From the start, `k` steps lead on, and not back, exactly if `k` is not negative. -/
theorem beyond_start_iff (hstep : r.step.toInt ≠ 0) (k : Int) :
    (if 0 < r.step.toInt then r.start.toInt ≤ r.start.toInt + r.step.toInt * k
      else r.start.toInt + r.step.toInt * k ≤ r.start.toInt) ↔ 0 ≤ k := by
  split
  · next hpos => rw [le_add_iff_nonneg_right, mul_nonneg_iff_of_pos_left hpos]
  · next hpos =>
    have hneg : r.step.toInt < 0 := lt_of_le_of_ne (not_lt.1 hpos) hstep
    rw [add_le_iff_nonpos_right, ← neg_nonneg, ← neg_mul,
      mul_nonneg_iff_of_pos_left (neg_pos.2 hneg)]

/-- A number `n` of the range lies between its bounds, a whole number `i` of steps from the start,
and every number that does is one. -/
theorem contains_iff (hstep : r.step.toInt ≠ 0) :
    r.contains n = true ↔ ∃ i < r.size, n.toInt = r.term i := by
  have hcontains : r.contains n = true ↔
      r.bounds n = true ∧ 0 < r.size ∧ r.step.toInt ∣ n.toInt - r.start.toInt := by
    rw [contains, Bool.and_eq_true, Bool.and_eq_true, decide_eq_true_eq, beq_iff_eq,
      ← Int.dvd_iff_emod_eq_zero, and_assoc]
  rw [hcontains, bounds_iff]
  constructor
  · rintro ⟨⟨hbeyond, hbefore⟩, -, k, hk⟩
    obtain hn : n.toInt = r.start.toInt + r.step.toInt * k := by omega
    rw [hn] at hbeyond hbefore
    -- The number is not before the start, so `k` is a position.
    lift k to ℕ using (beyond_start_iff hstep k).1 hbeyond
    exact ⟨k, (lt_size_iff hstep).2 hbefore, hn⟩
  · rintro ⟨i, hi, hn⟩
    refine ⟨⟨?_, hn ▸ (lt_size_iff hstep).1 hi⟩, Nat.zero_lt_of_lt hi, i, ?_⟩
    · rw [hn]
      exact (beyond_start_iff hstep i).2 (Int.natCast_nonneg i)
    · rw [hn, term, add_sub_cancel_left]

end Range

namespace Operation

theorem member_range (hneedle : needle.integer? = some n) (r : Range) :
    member needle (.range r) = pure (r.contains n) := by
  rw [member, hneedle]
  rfl

theorem equals_int (hneedle : needle.integer? = some n) (m : Int64) :
    equals needle (.int m) = pure (n == m) := by
  cases needle with
  | int | bool =>
    obtain rfl := Option.some.inj hneedle
    rfl
  | _ => cases hneedle

end Operation

open Operation

/-- Size, items and membership of a range `r` with a step are about the same numbers, whatever
64-bit numbers its ends and its step are: those of the progression that come before the end
(`Range.Before`). The size is how many they are, which 64 bits can count; the item at `i` is the
number there, although sum and product are taken modulo 2⁶⁴; and a whole number or truth value `n`
is in the range exactly if it is one of them, which is to say that it equals an item. -/
theorem Range.arithmetic_exact (hstep : r.step ≠ 0) :
    ({i | r.Before (r.term i)}.encard = r.size ∧ r.size < 2 ^ 64) ∧
    (∀ i < r.size, (r.item i).toInt = r.start.toInt + r.step.toInt * i) ∧
    (·.1) <$> Builtin.range.call [.int r.start, .int r.stop, .int r.step] [] = pure (.range r) ∧
    ∀ (needle : Value) (n : Int64), needle.integer? = some n →
      ∃ found, CompareOp.isIn.apply needle (.range r) = pure found ∧
        (found = true ↔ ∃ i < r.size, n.toInt = r.start.toInt + r.step.toInt * i) ∧
        (found = true ↔
          ∃ i < r.size, CompareOp.eq.apply needle (.int (r.item i)) = pure true) := by
  have hstep' := toInt_step_ne_zero hstep
  refine ⟨⟨encard_before hstep', size_lt hstep'⟩, fun i hi => toInt_item hstep' hi, ?range,
    fun needle n hneedle => ⟨r.contains n, member_range hneedle r, contains_iff hstep', ?equal⟩⟩
  case range =>
    rw [Builtin.call_value (by decide)]
    exact makeRange_three hstep
  case equal =>
    rw [contains_iff hstep']
    refine exists_congr fun i => and_congr_right fun hi => ?_
    rw [CompareOp.apply, equals_int hneedle, pure_inj, beq_iff_eq, ← Int64.toInt_inj,
      toInt_item hstep' hi]

/-- Down through all 64-bit numbers but the least there are more positions than a signed word can
count. The last one holds the least number but one, and `True` is in the range as 1. -/
theorem Range.arithmetic_exact_longest :
    let r : Range := ⟨Int64.maxValue, Int64.minValue, -1⟩
    r.step ≠ 0 ∧ {i | r.Before (r.term i)}.encard = (2 ^ 64 - 1 : Nat) ∧
      2 ^ 64 - 2 < r.size ∧ (r.item (2 ^ 64 - 2)).toInt = -2 ^ 63 + 1 ∧
      (Value.bool true).integer? = some 1 ∧
      CompareOp.isIn.apply (.bool true) (.range r) = pure true := by
  intro r
  have hstep : r.step ≠ 0 := by decide
  have hsize : r.size = 2 ^ 64 - 1 := by decide
  obtain ⟨⟨hcount, -⟩, hitems, -, hmembers⟩ := arithmetic_exact hstep
  obtain ⟨found, hfound, hmember, -⟩ := hmembers (.bool true) 1 rfl
  have hlast : 2 ^ 64 - 2 < r.size := by omega
  obtain rfl : found = true := hmember.2 ⟨2 ^ 63 - 2, by omega, by decide⟩
  refine ⟨hstep, hsize ▸ hcount, hlast, ?_, rfl, hfound⟩
  rw [hitems _ hlast]
  decide

end Stepper
