import Stepper.Number.Reading

/-!
# Decimal digits are read back

* `Number.isAsciiDigit_of_mem_toDigits`, `Number.ofDigits_toDigits`: the decimal digits of a number
  are digits, and they write that number.
* `Number.head_toDigits`: they start with a zero only if they are a single one.
* `Number.short?_toDigits`, `Number.int64?_toDigits`: so numbers of 64 bits are read back.
* `Number.rounded_le`: rounding to a float at most doubles a number.
-/

namespace Stepper.Number

theorem isAsciiDigit_iff {c : Char} : Text.isAsciiDigit c = true ↔ c.isDigit = true := by
  simp only [Text.isAsciiDigit, Char.isDigit, Bool.and_eq_true, decide_eq_true_eq]
  rfl

theorem isAsciiDigit_of_mem_toDigits {n : Nat} {c : Char} (h : c ∈ Nat.toDigits 10 n) :
    Text.isAsciiDigit c = true :=
  isAsciiDigit_iff.2 (Nat.isDigit_of_mem_toDigits (by decide) (by decide) h)

theorem ofDigits_toDigits (n : Nat) : ofDigits (Nat.toDigits 10 n) = n := by
  have h := @Nat.ofDigitChars_ten_toDigits n
  rwa [Nat.ofDigitChars_eq_foldl] at h

/-- Further `digits` do not make the number `n` smaller. -/
theorem le_ofDigitsFrom (n : Nat) (digits : List Char) : n ≤ ofDigitsFrom n digits := by
  induction digits generalizing n with
  | nil => exact Nat.le_refl n
  | cons d digits ih =>
    have hstep : n ≤ 10 * n + digitValue d := by omega
    exact Nat.le_trans hstep (ih _)

/-- Only the digits of `0` start with `'0'`. -/
theorem head_toDigits {n : Nat} (hn : 0 < n) : (Nat.toDigits 10 n).head? ≠ some '0' := by
  induction n using Nat.strongRecOn with
  | ind n ih =>
    by_cases hlt : n < 10
    · rw [Nat.toDigits_of_lt_base hlt]
      have hdigit : ∀ d < 10, 0 < d → [d.digitChar].head? ≠ some '0' := by decide
      exact hdigit n hlt hn
    · have hrec := ih (n / 10) (by omega) (by omega)
      have hne : Nat.toDigits 10 (n / 10) ≠ [] := Nat.toDigits_ne_nil
      rw [Nat.toDigits_of_base_le (by decide) (by omega)]
      obtain ⟨d, ds, hcons⟩ := List.exists_cons_of_ne_nil hne
      rw [hcons] at hrec ⊢
      exact hrec

/-- There is no `'0'` in front of other digits. -/
theorem length_toDigits_of_head {n : Nat} (h : (Nat.toDigits 10 n).head? = some '0') :
    (Nat.toDigits 10 n).length = 1 := by
  obtain rfl : n = 0 := Nat.eq_zero_of_not_pos fun hn => head_toDigits hn h
  rfl

theorem natural?_toDigits (n : Nat) : natural? (Nat.toDigits 10 n) = some n := by
  have hne : (Nat.toDigits 10 n).isEmpty = false := by
    simp [List.isEmpty_eq_false_iff, Nat.toDigits_ne_nil]
  have hall : (Nat.toDigits 10 n).all Text.isAsciiDigit = true :=
    List.all_eq_true.2 fun _ => isAsciiDigit_of_mem_toDigits
  rw [natural?, hne, hall, ofDigits_toDigits]
  rfl

theorem short?_toDigits {n : Nat} (h : n < 2 ^ 64) : short? (Nat.toDigits 10 n) = some n := by
  have hlength : (Nat.toDigits 10 n).length ≤ wordDigits :=
    (Nat.length_toDigits_le_iff (by decide) (by decide)).2 (Nat.lt_trans h (by decide))
  have hdrop := (List.dropWhile_suffix (l := Nat.toDigits 10 n) (· = '0')).length_le
  rw [short?, if_neg (by omega), natural?_toDigits]

/-- The digits of `n` carry no sign. -/
theorem sign_toDigits (n : Nat) : sign (Nat.toDigits 10 n) = (false, Nat.toDigits 10 n) := by
  have hdigit := @isAsciiDigit_of_mem_toDigits n
  unfold sign
  split
  · rename_i heq
    exact absurd (hdigit (heq ▸ List.mem_cons_self)) (by decide)
  · rename_i heq
    exact absurd (hdigit (heq ▸ List.mem_cons_self)) (by decide)
  · rfl

/-- A natural number `n` in the range of signed 64-bit numbers is one of them. -/
theorem int64OfInt?_natCast {n : Nat} (h : n < 2 ^ 63) :
    int64OfInt? n = some (Int64.ofInt n) := by
  have hrange : -2 ^ 63 ≤ (n : Int) ∧ (n : Int) < 2 ^ 63 := by omega
  rw [int64OfInt?, if_pos hrange]

theorem int64?_of_sign {cs digits : List Char} {negative : Bool}
    (h : sign cs = (negative, digits)) :
    int64? cs = (short? digits).bind fun n =>
      int64OfInt? (if negative then -(n : Int) else n) := by
  rw [int64?, h]

theorem int64?_toDigits {n : Nat} (h : n < 2 ^ 63) :
    int64? (Nat.toDigits 10 n) = some (Int64.ofInt n) := by
  have hshort : short? (Nat.toDigits 10 n) = some n := short?_toDigits (by omega)
  rw [int64?_of_sign (sign_toDigits n), hshort, Option.bind_some, if_neg (by decide),
    int64OfInt?_natCast h]

/-- Rounding to a float at most doubles the number `n`. -/
theorem rounded_le (n : Nat) : rounded n ≤ 2 * n := by
  unfold rounded
  split
  · omega
  · rename_i hn
    have hpos : n ≠ 0 := by
      rintro rfl
      exact hn (by decide)
    have hunit : 2 ^ (n.log2 - fractionBits) ≤ n :=
      Nat.le_trans (Nat.pow_le_pow_right (by decide) (Nat.sub_le _ _)) (Nat.log2_self_le hpos)
    generalize 2 ^ (n.log2 - fractionBits) = unit at hunit
    have hquotient : roundQuotient n unit ≤ n / unit + 1 := by
      unfold roundQuotient
      dsimp only
      split <;> omega
    calc roundQuotient n unit * unit ≤ (n / unit + 1) * unit := Nat.mul_le_mul_right _ hquotient
      _ = n / unit * unit + unit := Nat.succ_mul ..
      _ ≤ n + n := Nat.add_le_add (Nat.div_mul_le_self n unit) hunit
      _ = 2 * n := (Nat.two_mul n).symm

end Stepper.Number
