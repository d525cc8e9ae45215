import Mathlib.Data.Rat.Floor
import Mathlib.Tactic.LinearCombination
import Stepper.Proofs.Operation.Results

/-!
# Division of whole numbers

* `RoundsDown`: a quotient and a rest divide one number by another, rounding down. Such a quotient
  is the floor of the fraction (`RoundsDown.eq_floor`), and the quotient rounded toward zero becomes
  one by the correction (`roundsDown_of_up`, `roundsDown_of_not_up`).
* `Arithmetic.StepsExact`: no step of a division leaves the range.
* `ArithOp.division_law`: `//` is the floor of the fraction and `%` is what it leaves, with the sign
  of the divisor.
-/

namespace Stepper

/-! ## Rounding down -/

/-- The `quotient` and the `rest` divide `x` by `y`: the rest has the sign of `y` and is less. -/
structure RoundsDown (x y quotient rest : Int) : Prop where
  law : quotient * y + rest = x
  lt : |rest| < |y|
  sign : rest = 0 ∨ rest.sign = y.sign

namespace RoundsDown

variable {x y quotient rest : Int}

theorem ne_zero (h : RoundsDown x y quotient rest) : y ≠ 0 := by
  rintro rfl
  exact absurd h.lt (by simp)

/-- The `rest` is between `0` and `y`. -/
theorem between (h : RoundsDown x y quotient rest) : 0 ≤ rest ∧ rest < y ∨ y < rest ∧ rest ≤ 0 := by
  have hlt := h.lt
  rcases lt_or_gt_of_ne h.ne_zero with hneg | hpos
  · right
    rw [abs_of_neg hneg, abs_lt] at hlt
    rcases h.sign with hzero | hsign
    · omega
    · rw [Int.sign_eq_neg_one_of_neg hneg, Int.sign_eq_neg_one_iff_neg] at hsign
      omega
  · left
    rw [abs_of_pos hpos, abs_lt] at hlt
    rcases h.sign with hzero | hsign
    · omega
    · rw [Int.sign_eq_one_of_pos hpos, Int.sign_eq_one_iff_pos] at hsign
      omega

/-- The `quotient` is the floor of `x / y`. -/
theorem eq_floor (h : RoundsDown x y quotient rest) : quotient = ⌊(x : ℚ) / y⌋ := by
  have hlaw : (x : ℚ) = quotient * y + rest := by exact_mod_cast h.law.symm
  have hy : (y : ℚ) ≠ 0 := Int.cast_ne_zero.2 h.ne_zero
  have hfraction : (x : ℚ) / y = quotient + rest / y := by
    rw [hlaw]
    field_simp
  have hpart : 0 ≤ (rest : ℚ) / y ∧ (rest : ℚ) / y < 1 := by
    rcases h.between with ⟨hzero, hlt⟩ | ⟨hlt, hzero⟩
    · have hpos : (0 : ℚ) < y := by exact_mod_cast hzero.trans_lt hlt
      exact ⟨div_nonneg (by exact_mod_cast hzero) hpos.le,
        (div_lt_one hpos).2 (by exact_mod_cast hlt)⟩
    · have hneg : (y : ℚ) < 0 := by exact_mod_cast hlt.trans_le hzero
      exact ⟨div_nonneg_of_nonpos (by exact_mod_cast hzero) hneg.le,
        (div_lt_one_of_neg hneg).2 (by exact_mod_cast hlt)⟩
  rw [hfraction, Int.floor_intCast_add, Int.floor_eq_zero_iff.2 hpart, add_zero]

end RoundsDown

/-- Rounding toward zero, `tmod` leaves less than the divisor `y`. -/
theorem natAbs_tmod_lt {x y : Int} (hy : y ≠ 0) : (x.tmod y).natAbs < y.natAbs := by
  rw [Int.natAbs_tmod]
  exact Nat.mod_lt _ (Int.natAbs_pos.2 hy)

/-- Rounding toward zero, `tmod` leaves nothing, or something with the sign of the dividend `x`. -/
theorem tmod_neg_iff {x y : Int} (h : x.tmod y ≠ 0) : x.tmod y < 0 ↔ x < 0 := by
  rcases le_or_gt 0 x with hx | hx
  · have := Int.tmod_nonneg y hx
    omega
  · have := Int.tmod_nonneg y (Int.neg_nonneg_of_nonpos hx.le)
    rw [Int.neg_tmod] at this
    omega

theorem sign_eq_of_neg_iff {m n : Int} (hm : m ≠ 0) (hn : n ≠ 0) (h : m < 0 ↔ n < 0) :
    m.sign = n.sign := by
  rcases lt_or_gt_of_ne hn with hneg | hpos
  · rw [Int.sign_eq_neg_one_of_neg hneg, Int.sign_eq_neg_one_of_neg (h.2 hneg)]
  · have hmpos : 0 < m := by omega
    rw [Int.sign_eq_one_of_pos hpos, Int.sign_eq_one_of_pos hmpos]

/-- Where rounding toward zero goes up, the quotient is one less and the rest `y` more. -/
theorem roundsDown_of_up {x y : Int} (hy : y ≠ 0) (hrest : x.tmod y ≠ 0)
    (hsign : ¬(x < 0 ↔ y < 0)) : RoundsDown x y (x.tdiv y - 1) (x.tmod y + y) := by
  have hlaw := Int.mul_tdiv_add_tmod x y
  have hlt := natAbs_tmod_lt (x := x) hy
  have hneg := tmod_neg_iff hrest
  refine ⟨by linear_combination hlaw, ?_, .inr (sign_eq_of_neg_iff ?_ hy ?_)⟩
  · rw [Int.abs_eq_natAbs, Int.abs_eq_natAbs]
    omega
  · omega
  · omega

/-- Where it does not go up, `tdiv` rounds down already. -/
theorem roundsDown_of_not_up {x y : Int} (hy : y ≠ 0)
    (h : x.tmod y ≠ 0 → (x < 0 ↔ y < 0)) : RoundsDown x y (x.tdiv y) (x.tmod y) := by
  have hlaw := Int.mul_tdiv_add_tmod x y
  have hlt := natAbs_tmod_lt (x := x) hy
  refine ⟨by linear_combination hlaw, ?_, ?_⟩
  · rw [Int.abs_eq_natAbs, Int.abs_eq_natAbs]
    omega
  · by_cases hrest : x.tmod y = 0
    · exact .inl hrest
    · exact .inr (sign_eq_of_neg_iff hrest hy ((tmod_neg_iff hrest).trans (h hrest)))

/-! ## The steps of a division -/

namespace Arithmetic

variable {a b : Int64}

theorem toInt_eq_zero_iff {n : Int64} : n.toInt = 0 ↔ n = 0 :=
  Int64.toInt_zero ▸ Int64.toInt_inj

theorem divides_iff (hb : b ≠ 0) : divides a b = true ↔ ¬(a = Int64.minValue ∧ b = -1) := by
  simp [divides, hb, imp_iff_not_or]

/-- The quotient of two numbers that divide, `a / b`, does not wrap around. -/
theorem toInt_div_of_divides (h : divides a b = true) :
    (a / b).toInt = a.toInt.tdiv b.toInt := by
  by_cases hb : b = -1
  · have ha : a ≠ Int64.minValue := by
      rintro rfl
      subst hb
      exact absurd h (by decide)
    exact Int64.toInt_div_of_ne_left a b ha
  · exact Int64.toInt_div_of_ne_right a b hb

/-- Where there is no quotient in range, the division leaves nothing, and `0` is taken. -/
theorem toInt_rest (hb : b ≠ 0) : ((rest? a b).getD 0).toInt = a.toInt.tmod b.toInt := by
  unfold rest?
  split
  · exact Int64.toInt_mod a b
  · rename_i h
    rw [divides_iff hb, not_not] at h
    obtain ⟨rfl, rfl⟩ := h
    decide

theorem wentUp_iff {rest dividend divisor : Int64} :
    wentUp rest dividend divisor = true ↔
      rest.toInt ≠ 0 ∧ ¬(dividend.toInt < 0 ↔ divisor.toInt < 0) := by
  rw [ne_eq, toInt_eq_zero_iff, ← Int64.toInt_zero, ← Int64.lt_iff_toInt_lt,
    ← Int64.lt_iff_toInt_lt]
  simp [wentUp]

/-- A division that leaves something has a divisor `y` of at least two, and so a quotient far within
the range. -/
theorem natAbs_tdiv_le {x y : Int} (hx : x.natAbs ≤ 2 ^ 63) (hy : y ≠ 0) (hrest : x.tmod y ≠ 0) :
    (x.tdiv y).natAbs ≤ 2 ^ 62 := by
  have hlt := natAbs_tmod_lt (x := x) hy
  have htwo : 2 ≤ y.natAbs := by omega
  calc (x.tdiv y).natAbs = x.natAbs / y.natAbs := Int.natAbs_tdiv x y
    _ ≤ x.natAbs / 2 := Nat.div_le_div_left htwo (by decide)
    _ ≤ 2 ^ 62 := by omega

theorem toInt_sub_one (hb : b ≠ 0) (hdivides : divides a b = true)
    (hup : wentUp (a % b) a b = true) : (a / b - 1).toInt = (a / b).toInt - 1 := by
  have hrest := (wentUp_iff.1 hup).1
  rw [Int64.toInt_mod] at hrest
  have hlow := Int64.le_toInt a
  have hhigh := Int64.toInt_lt a
  have hle := natAbs_tdiv_le (by omega) (mt toInt_eq_zero_iff.1 hb) hrest
  rw [Int64.toInt_sub, Int64.toInt_one, toInt_div_of_divides hdivides]
  exact Int.bmod_eq_of_le (by omega) (by omega)

theorem toInt_add_divisor {rest : Int64} (hup : wentUp rest rest b = true) :
    (rest + b).toInt = rest.toInt + b.toInt := by
  have hsign := (wentUp_iff.1 hup).2
  have hlow := Int64.le_toInt b
  have hhigh := Int64.toInt_lt b
  have hlow' := Int64.le_toInt rest
  have hhigh' := Int64.toInt_lt rest
  rw [Int64.toInt_add]
  exact Int.bmod_eq_of_le (by omega) (by omega)

/-- No step of the two divisions of `a` by `b` leaves the range: where there is a quotient, so is
there a rest, both are those of the whole numbers, and their corrections are exact. -/
structure StepsExact (a b : Int64) : Prop where
  quotient : ∀ q, quotient? a b = some q →
    q.toInt = a.toInt.tdiv b.toInt ∧ rest? a b = some (a % b) ∧
      (wentUp (a % b) a b = true → (q - 1).toInt = q.toInt - 1)
  rest : ∀ r, r = (rest? a b).getD 0 →
    r.toInt = a.toInt.tmod b.toInt ∧ (wentUp r r b = true → (r + b).toInt = r.toInt + b.toInt)

theorem stepsExact (hb : b ≠ 0) : StepsExact a b where
  quotient := by
    intro q hq
    unfold quotient? at hq
    split at hq
    · rename_i hdivides
      cases hq
      exact ⟨toInt_div_of_divides hdivides, if_pos hdivides, toInt_sub_one hb hdivides⟩
    · cases hq
  rest := by
    rintro r rfl
    exact ⟨toInt_rest hb, toInt_add_divisor⟩

/-- What is left tells by its own sign whether the quotient of `a` and `b` went up. -/
theorem wentUp_rest (hb : b ≠ 0) :
    wentUp ((rest? a b).getD 0) ((rest? a b).getD 0) b = true ↔
      a.toInt.tmod b.toInt ≠ 0 ∧ ¬(a.toInt < 0 ↔ b.toInt < 0) := by
  rw [wentUp_iff, toInt_rest hb]
  exact and_congr_right fun hrest => by rw [tmod_neg_iff hrest]

/-- What the division leaves, `floorRest a b`, goes with a `quotient` rounded down, and this is the
one that is found if there is one in range. -/
theorem floor_roundsDown (hb : b ≠ 0) :
    ∃ quotient : Int, RoundsDown a.toInt b.toInt quotient (floorRest a b).toInt ∧
      (divides a b = true → ∃ q, floorQuotient? a b = some q ∧ q.toInt = quotient) := by
  have hb' : b.toInt ≠ 0 := mt toInt_eq_zero_iff.1 hb
  have hrest := toInt_rest (a := a) hb
  have hquotient (h : divides a b = true) :
      floorQuotient? a b = some (if wentUp (a % b) a b then a / b - 1 else a / b) := by
    rw [floorQuotient?, quotient?, if_pos h]
    rfl
  have hsteps : wentUp (a % b) a b = true ↔
      a.toInt.tmod b.toInt ≠ 0 ∧ ¬(a.toInt < 0 ↔ b.toInt < 0) := by
    rw [wentUp_iff, Int64.toInt_mod]
  unfold floorRest
  dsimp only
  -- Whether rounding toward zero went up decides both corrections, that of the quotient by `hsteps`
  -- and that of the rest by `wentUp_rest`.
  by_cases hup : a.toInt.tmod b.toInt ≠ 0 ∧ ¬(a.toInt < 0 ↔ b.toInt < 0)
  · have hrestUp := (wentUp_rest hb).2 hup
    refine ⟨a.toInt.tdiv b.toInt - 1, ?_, fun h => ⟨_, hquotient h, ?_⟩⟩
    · rw [if_pos hrestUp, toInt_add_divisor hrestUp, hrest]
      exact roundsDown_of_up hb' hup.1 hup.2
    · rw [if_pos (hsteps.2 hup), toInt_sub_one hb h (hsteps.2 hup), toInt_div_of_divides h]
  · refine ⟨a.toInt.tdiv b.toInt, ?_, fun h => ⟨_, hquotient h, ?_⟩⟩
    · rw [if_neg (mt (wentUp_rest hb).1 hup), hrest]
      exact roundsDown_of_not_up hb' fun hne => not_not.1 fun hsign => hup ⟨hne, hsign⟩
    · rw [if_neg (mt hsteps.1 hup), toInt_div_of_divides h]

end Arithmetic

/-! ## Operators -/

open Operation Arithmetic

/-- For `b = 0`, `//` and `%` raise a `ZeroDivisionError`. For any other `b`, `%` has a result `r`,
which is less than `b` and has its sign, and `//` has the floor of `a / b` unless this has no 64
bits, which happens for one pair of numbers only. Quotient and rest make up `a`, and no step on the
way leaves the range. -/
theorem ArithOp.division_law (a b : Int64) :
    (b = 0 →
      ArithOp.floorDiv.apply (.int a) (.int b) = fail (.zeroDivision .floorQuotient) ∧
      ArithOp.mod.apply (.int a) (.int b) = fail (.zeroDivision .remainder)) ∧
    (b ≠ 0 → StepsExact a b ∧
      ∃ r : Int64, ArithOp.mod.apply (.int a) (.int b) = pure (.int r) ∧
        (r = 0 ∨ r.toInt.sign = b.toInt.sign) ∧ |r.toInt| < |b.toInt| ∧
        (a = Int64.minValue ∧ b = -1 →
          ArithOp.floorDiv.apply (.int a) (.int b) = fail .integerRange) ∧
        (¬(a = Int64.minValue ∧ b = -1) →
          ∃ q : Int64, ArithOp.floorDiv.apply (.int a) (.int b) = pure (.int q) ∧
            q.toInt = ⌊(a.toInt : ℚ) / b.toInt⌋ ∧ q.toInt * b.toInt + r.toInt = a.toInt)) ∧
    (∀ operation, (Fault.zeroDivision operation).kind = .zeroDivisionError) ∧
    Fault.integerRange.kind = .overflowError := by
  refine ⟨?zero, ?nonzero, fun _ => rfl, rfl⟩
  case zero =>
    rintro rfl
    constructor <;> rfl
  case nonzero =>
    intro hb
    obtain ⟨quotient, hdown, hfound⟩ := floor_roundsDown (a := a) hb
    refine ⟨stepsExact hb, floorRest a b, ?_, ?_, hdown.lt, ?_, ?_⟩
    · rw [ArithOp.apply_int, whole, if_neg hb]
      rfl
    · exact hdown.sign.imp_left toInt_eq_zero_iff.1
    · rintro ⟨rfl, rfl⟩
      rfl
    · intro hrange
      obtain ⟨q, hq, rfl⟩ := hfound ((divides_iff hb).2 hrange)
      refine ⟨q, ?_, hdown.eq_floor, hdown.law⟩
      rw [ArithOp.apply_int, whole, if_neg hb, hq]
      rfl

/-- Signs that differ, in `-7 // 2`: the quotient goes down to `-4`, and `1` is left. -/
theorem division_law_signs :
    (2 : Int64) ≠ 0 ∧ ¬((-7 : Int64) = Int64.minValue ∧ (2 : Int64) = -1) ∧
      ∃ q r : Int64, ArithOp.floorDiv.apply (.int (-7)) (.int 2) = pure (.int q) ∧
        ArithOp.mod.apply (.int (-7)) (.int 2) = pure (.int r) ∧ q.toInt = -4 ∧ r.toInt = 1 := by
  have hzero : (2 : Int64) ≠ 0 := by decide
  have hrange : ¬((-7 : Int64) = Int64.minValue ∧ (2 : Int64) = -1) := by decide
  obtain ⟨-, hdivision, -⟩ := ArithOp.division_law (-7) 2
  obtain ⟨-, r, hr, hsign, hlt, -, hquotient⟩ := hdivision hzero
  obtain ⟨q, hq, -, hlaw⟩ := hquotient hrange
  have hdividend : (-7 : Int64).toInt = -7 := by decide
  have hdivisor : (2 : Int64).toInt = 2 := by decide
  rw [hdividend, hdivisor] at hlaw
  rw [hdivisor, abs_two, abs_lt] at hlt
  have hpos : 0 < r.toInt := by
    rcases hsign with rfl | hsign
    · rw [Int64.toInt_zero] at hlaw
      omega
    · exact Int.sign_eq_one_iff_pos.1 hsign
  exact ⟨hzero, hrange, q, r, hq, hr, by omega, by omega⟩

end Stepper
