import Mathlib.Algebra.Order.Ring.Int
import Mathlib.Tactic.Linarith
import Mathlib.Tactic.Ring
import Stepper.Item
import Stepper.Proofs.Operation.Results
import Stepper.Stmt.Exec

/-!
# Views of a range

* `Range.term`, `Range.Before`: the numbers of a progression, and which of them come before its end.
* `Range.lt_size_iff`, `Range.toInt_item`: the size of a range counts the numbers before its end,
  and its items are these numbers.
* `Operation.position_inside`, `Operation.position_outside`: the position that an index stands for,
  among as many items as a signed word can count.
* `range_views_agree`: length, subscript and loop agree about a range of at most 2⁶³ - 1 items.
-/

namespace Stepper

namespace Range

/-- The number `i` of the progression, as a whole number. -/
def term (r : Range) (i : Nat) : Int :=
  r.start.toInt + r.step.toInt * i

/-- Whether `n` lies before the end, seen in the direction of the step. -/
def Before (r : Range) (n : Int) : Prop :=
  if 0 < r.step.toInt then n < r.stop.toInt else r.stop.toInt < n

variable {r : Range} {i : Nat}

/-- The number of times that `step` fits into `distance`, the last one in part, rounded up. -/
theorem lt_ceil_iff {step : Int} (hstep : 0 < step) (distance : Int) (i : Nat) :
    i < ((distance + step - 1) / step).toNat ↔ step * i < distance := by
  rw [Int.lt_toNat, Int.lt_iff_add_one_le, Int.le_ediv_iff_mul_le hstep]
  have hmul : ((i : Int) + 1) * step = step * i + step := by ring
  omega

/-- The size of `r` counts the numbers of the progression that come before the end. -/
theorem lt_size_iff (hstep : r.step.toInt ≠ 0) : i < r.size ↔ r.Before (r.term i) := by
  unfold size Before term
  rcases lt_or_gt_of_ne hstep with hneg | hpos
  · have hnonpos : r.step.toInt * i ≤ 0 :=
      Int.mul_nonpos_of_nonpos_of_nonneg hneg.le (Int.natCast_nonneg i)
    have hceil := lt_ceil_iff (Int.neg_pos_of_neg hneg) (r.start.toInt - r.stop.toInt) i
    rw [Int.neg_mul, ← sub_eq_add_neg] at hceil
    simp only [hneg, not_lt_of_gt hneg, false_and, true_and, if_false]
    split
    · rw [hceil]
      omega
    · omega
  · have hnonneg : 0 ≤ r.step.toInt * i := Int.mul_nonneg hpos.le (Int.natCast_nonneg i)
    simp only [hpos, not_lt_of_gt hpos, false_and, true_and, if_false, if_true]
    split
    · rw [lt_ceil_iff hpos]
      omega
    · omega

/-- The number `r.term i` of the range lies between its ends, so it has 64 bits. -/
theorem term_bounds (hstep : r.step.toInt ≠ 0) (hi : i < r.size) :
    -2 ^ 63 ≤ r.term i ∧ r.term i < 2 ^ 63 := by
  have hbefore := (lt_size_iff hstep).1 hi
  have hstart := And.intro (Int64.le_toInt r.start) (Int64.toInt_lt r.start)
  have hstop := And.intro (Int64.le_toInt r.stop) (Int64.toInt_lt r.stop)
  unfold Before at hbefore
  unfold term at hbefore ⊢
  split at hbefore
  · have hnonneg : 0 ≤ r.step.toInt * i := Int.mul_nonneg (by omega) (Int.natCast_nonneg i)
    omega
  · have hnonpos : r.step.toInt * i ≤ 0 :=
      Int.mul_nonpos_of_nonpos_of_nonneg (by omega) (Int.natCast_nonneg i)
    omega

/-- The item at `i` is the number of the progression there: what is lost in the product comes back
with the sum. -/
theorem toInt_item (hstep : r.step.toInt ≠ 0) (hi : i < r.size) :
    (r.item i).toInt = r.term i := by
  have hbounds := term_bounds hstep hi
  have hitem : (r.item i).toInt = (r.term i).bmod (2 ^ 64) := by
    unfold item term
    rw [Int64.toInt_add, Int64.toInt_mul]
    simp
  -- The number has 64 bits, so taking it modulo `2 ^ 64` changes nothing.
  rw [hitem]
  exact Int.bmod_eq_of_le (by omega) (by omega)

end Range

/-! ## Indices -/

namespace Operation

variable {what : Indexed} {key : Value} {k : Int64} {size : Nat}

/-- A `size` that a signed word can hold is that word. -/
theorem toInt_size (hsize : size < 2 ^ 63) : (Int64.ofNat size).toInt = size :=
  Int64.toInt_ofNat_of_lt hsize

/-- Counting from the end, `k + size` does not wrap around. -/
theorem toInt_add_size (hsize : size < 2 ^ 63) (hk : k < 0) :
    (k + Int64.ofNat size).toInt = k.toInt + size := by
  rw [Int64.lt_iff_toInt_lt, Int64.toInt_zero] at hk
  have hlow := Int64.le_toInt k
  rw [Int64.toInt_add, toInt_size hsize]
  exact Int.bmod_eq_of_le (by omega) (by omega)

theorem position_eq (hkey : key.integer? = some k) (hsize : size < 2 ^ 63) :
    position what key size =
      let place := if k.toInt < 0 then k.toInt + size else k.toInt
      if place < 0 ∨ size ≤ place then fail (.outOfRange what) else pure place.toNat := by
  unfold position
  rw [hkey]
  have hplace : (if k < 0 then k + Int64.ofNat size else k).toInt =
      if k.toInt < 0 then k.toInt + size else k.toInt := by
    have hneg : k < 0 ↔ k.toInt < 0 := by rw [Int64.lt_iff_toInt_lt, Int64.toInt_zero]
    split
    · rw [if_pos (hneg.1 ‹_›), toInt_add_size hsize ‹_›]
    · rw [if_neg (mt hneg.2 ‹_›)]
  dsimp only
  rw [← hplace]
  simp only [Int64.lt_iff_toInt_lt, Int64.le_iff_toInt_le, Int64.toInt_zero, toInt_size hsize,
    Bool.or_eq_true, decide_eq_true_eq]

/-- An index `k` within `size` stands for the position `i`, counted from the start or from the
end. -/
theorem position_inside {i : Nat} (hkey : key.integer? = some k) (hsize : size < 2 ^ 63)
    (hi : i < size) (hk : k.toInt = i ∨ k.toInt = (i : Int) - size) :
    position what key size = pure i := by
  rw [position_eq hkey hsize]
  have hplace : (if k.toInt < 0 then k.toInt + size else k.toInt) = i := by
    split <;> omega
  dsimp only
  rw [hplace, if_neg (by omega), Int.toNat_natCast]

theorem position_outside (hkey : key.integer? = some k) (hsize : size < 2 ^ 63)
    (hk : k.toInt < -size ∨ size ≤ k.toInt) :
    position what key size = fail (.outOfRange what) := by
  rw [position_eq hkey hsize]
  refine if_pos ?_
  split <;> omega

theorem makeRange_three {start stop step : Int64} (hstep : step ≠ 0) :
    makeRange [.int start, .int stop, .int step] = pure (.range ⟨start, stop, step⟩) := by
  have hrange : makeRange [.int start, .int stop, .int step] =
      if step = 0 then fail .zeroStep else pure (.range ⟨start, stop, step⟩) := rfl
  rw [hrange, if_neg hstep]

theorem length_range (r : Range) : length (.range r) = pure (.int (Int64.ofNat r.size)) := rfl

theorem getItem_range {r : Range} {i : Nat} (h : position .range key r.size = pure i) :
    getItem (.range r) key = pure (.int (r.item i)) := by
  unfold getItem
  dsimp only
  rw [h, pure_bind]

end Operation

/-! ## All views of a range -/

open Operation

/-- A range `r` whose progression has `n` numbers before its end, no more than a signed word can
count, has the length `n`. Under an index from `-n` to `n - 1` stands the number at that position,
which is also the one that a loop binds there, and any other index is out of range. Neither the
length nor an index counted from the end wraps around. -/
theorem range_views_agree {r : Range} (hstep : r.step ≠ 0) {n : Nat}
    (hn : ∀ i, i < n ↔ r.Before (r.term i)) (hfits : n < 2 ^ 63) :
    (·.1) <$> Builtin.range.call [.int r.start, .int r.stop, .int r.step] [] = pure (.range r) ∧
    (∃ m : Int64, m.toInt = n ∧ (·.1) <$> Builtin.len.call [.range r] [] = pure (.int m)) ∧
    (walk (.range r) = pure (.range r) ∧
      ∀ (key : Value) (k : Int64), key.integer? = some k →
        (∀ i < n, k.toInt = i ∨ k.toInt = (i : Int) - n →
          ∃ x : Int64, x.toInt = r.start.toInt + r.step.toInt * i ∧
            getItem (.range r) key = pure (.int x) ∧
            ∀ s, (Walk.range r).item? s i = some (.int x)) ∧
        (k.toInt < -n ∨ n ≤ k.toInt → getItem (.range r) key = fail (.outOfRange .range))) ∧
    (Fault.outOfRange .range).kind = .indexError ∧
    ((Int64.ofNat r.size).toInt = n ∧
      ∀ k : Int64, k < 0 → (k + Int64.ofNat r.size).toInt = k.toInt + n) := by
  have hstep' : r.step.toInt ≠ 0 := fun h =>
    hstep (Int64.toInt_inj.1 (h.trans Int64.toInt_zero.symm))
  obtain rfl : n = r.size := by
    refine eq_of_forall_lt_iff fun i => ?_
    rw [hn, Range.lt_size_iff hstep']
  refine ⟨?range, ⟨Int64.ofNat r.size, toInt_size hfits, ?len⟩, ⟨rfl, ?items⟩, rfl,
    toInt_size hfits, fun k => toInt_add_size hfits⟩
  case range =>
    rw [Builtin.call_value (by decide)]
    exact makeRange_three hstep
  case len =>
    rw [Builtin.call_value (by decide), Builtin.value, oneArgument_singleton, pure_bind]
    exact length_range r
  case items =>
    intro key k hkey
    refine ⟨fun i hi hk => ⟨r.item i, Range.toInt_item hstep' hi, ?_, fun s => if_pos hi⟩, ?_⟩
    · exact getItem_range (position_inside hkey hfits hi hk)
    · intro hk
      unfold getItem
      dsimp only
      rw [position_outside hkey hfits hk]
      rfl

/-- Down from `10` in steps of four the last number before `-5` is `-2`, by index and in a loop. -/
theorem range_views_agree_down :
    let r : Range := ⟨10, -5, -4⟩
    r.step ≠ 0 ∧ (∀ i, i < 4 ↔ r.Before (r.term i)) ∧ 4 < 2 ^ 63 ∧
      getItem (.range r) (.int (-1)) = pure (.int (-2)) ∧
      ∀ s, (Walk.range r).item? s 3 = some (.int (-2)) := by
  intro r
  have hstep : r.step ≠ 0 := by decide
  have hsize : r.size = 4 := by decide
  have hn (i : Nat) : i < 4 ↔ r.Before (r.term i) := by
    rw [← hsize, Range.lt_size_iff (by decide)]
  obtain ⟨-, -, ⟨-, hitems⟩, -⟩ := range_views_agree hstep hn (by decide)
  obtain ⟨x, hx, hitem, hloop⟩ :=
    (hitems (.int (-1)) (-1) rfl).1 3 (by decide) (.inr (by decide))
  obtain rfl : x = -2 := Int64.toInt_inj.1 (hx.trans (by decide))
  exact ⟨hstep, hn, by decide, hitem, hloop⟩

/-- A range with more numbers than a signed word can count: a loop begins with the first one, but
the length is negative, there is nothing under the index `0`, and the least index wraps around. -/
theorem long_range_without_items :
    let r : Range := ⟨Int64.minValue, Int64.maxValue, 1⟩
    (∀ i, i < 2 ^ 64 - 1 ↔ r.Before (r.term i)) ∧
      (∀ s, (Walk.range r).item? s 0 = some (.int Int64.minValue)) ∧
      (·.1) <$> Builtin.len.call [.range r] [] = pure (.int (-1)) ∧
      getItem (.range r) (.int 0) = fail (.outOfRange .range) ∧
      (Int64.minValue + Int64.ofNat r.size).toInt ≠
        Int64.minValue.toInt + (Int64.ofNat r.size).toInt := by
  intro r
  have hsize : r.size = 2 ^ 64 - 1 := by decide
  have hlength : Int64.ofNat r.size = -1 := by
    rw [hsize]
    decide
  have hposition : position .range (.int 0) r.size = fail (.outOfRange .range) := by
    unfold position
    rw [hlength]
    rfl
  refine ⟨fun i => ?_, fun s => ?_, ?_, ?_, ?_⟩
  · rw [← hsize, Range.lt_size_iff (by decide)]
  · have hfirst : r.item 0 = Int64.minValue := by decide
    rw [Walk.item?, if_pos (by omega), hfirst]
  · rw [Builtin.call_value (by decide), Builtin.value, oneArgument_singleton, pure_bind,
      length_range, hsize]
    rfl
  · unfold getItem
    dsimp only
    rw [hposition]
    rfl
  · rw [hlength]
    decide

end Stepper
