import Stepper.Operator

/-!
# Identity

* `Value.hasIdentity`: the values that identity has a case for.
* `Value.same_self`, `Value.same_symm`: identity is reflexive on these, and symmetric.
* `Store.equals_of_same`: identical values are equal, without a look at what they contain.
* `CompareOp.identity_sound`: these for the operators, and `is not` is the negation of `is`.
-/

namespace Stepper

variable {s : Store} {a b v : Value}

/-- Whether `is` has a case for the value: it has none for floats, ranges and methods. -/
def Value.hasIdentity : Value → Bool
  | float _ | range _ | method _ _ => false
  | _ => true

namespace Value

theorem same_self (h : v.hasIdentity) : v.same v := by
  cases v with
  | float | range | method => cases h
  | none => rfl
  | _ => simp [same]

theorem same_symm (a b : Value) : a.same b = b.same a := by
  cases a <;> cases b <;> first | rfl | exact BEq.comm

/-- Identical values `a` and `b` are one and the same, or functions that were defined at one
place. -/
theorem same_cases (h : a.same b) :
    a = b ∧ a.hasIdentity ∨ ∃ f g, a = .function f ∧ b = .function g ∧ f.loc = g.loc := by
  cases a with
  | function f =>
    cases b with
    | function g => exact .inr ⟨f, g, rfl, rfl, eq_of_beq h⟩
    | _ => cases h
  | none =>
    cases b with
    | none => exact .inl ⟨rfl, rfl⟩
    | _ => cases h
  | _ => cases b <;> first | cases h | exact .inl ⟨congrArg _ (eq_of_beq h), rfl⟩

end Value

namespace Store

/-- A value `v` that identity has a case for equals itself. A container does so without a look at
what it contains. -/
theorem equals_self (h : v.hasIdentity) : s.equals v v = .ok true := by
  cases v with
  | float | range | method => cases h
  | list | dict => exact if_pos rfl
  | none => rfl
  | _ => exact congrArg Except.ok (beq_self_eq_true _)

/-- Identical values `a` and `b` are equal. -/
theorem equals_of_same (h : a.same b) : s.equals a b = .ok true := by
  obtain ⟨rfl, hidentity⟩ | ⟨f, g, rfl, rfl, hloc⟩ := Value.same_cases h
  · exact equals_self hidentity
  · exact congrArg Except.ok (beq_iff_eq.2 hloc)

end Store

/-- Identity is sound: a value other than a float, a range or a method (`hasIdentity`) is identical
to itself, identical values are so in either order and are equal, and `is not` is the negation of
`is`. -/
theorem CompareOp.identity_sound (s : Store) :
    (∀ v, v.hasIdentity → CompareOp.same.apply v v s = .ok (true, s)) ∧
    (∀ a b, CompareOp.same.apply a b s = .ok (true, s) →
      CompareOp.same.apply b a s = .ok (true, s) ∧ CompareOp.eq.apply a b s = .ok (true, s)) ∧
    ∀ a b, ∃ answer, CompareOp.same.apply a b s = .ok (answer, s) ∧
      CompareOp.notSame.apply a b s = .ok (!answer, s) := by
  have happly (a b : Value) : CompareOp.same.apply a b s = .ok (a.same b, s) := rfl
  simp only [happly, Except.ok.injEq, Prod.mk.injEq, and_true]
  refine ⟨fun v hv => Value.same_self hv, fun a b h => ⟨?_, ?_⟩, fun a b => ⟨a.same b, rfl, rfl⟩⟩
  · rw [Value.same_symm, h]
  · change Operation.lookDeep .comparedTooDeep (·.equals a b) s = _
    simp only [Operation.lookDeep, Store.equals_of_same h]

/-- A list that contains itself is identical to itself, and so it is equal to itself. -/
theorem CompareOp.identity_sound_cyclic :
    let s : Store := ⟨#[#[.list 0]], #[]⟩
    CompareOp.same.apply (.list 0) (.list 0) s = .ok (true, s) ∧
      CompareOp.eq.apply (.list 0) (.list 0) s = .ok (true, s) := by
  intro s
  obtain ⟨hself, hsame, -⟩ := CompareOp.identity_sound s
  have hidentical := hself (.list 0) rfl
  exact ⟨hidentical, (hsame _ _ hidentical).2⟩

/-- The float `1.5` and the range `range(0, 3)` are equal to themselves and yet not identical to
themselves. -/
theorem CompareOp.float_not_itself :
    (CompareOp.eq.apply (.float 1.5) (.float 1.5) .empty = .ok (true, .empty) ∧
      CompareOp.same.apply (.float 1.5) (.float 1.5) .empty = .ok (false, .empty)) ∧
    CompareOp.eq.apply (.range ⟨0, 3, 1⟩) (.range ⟨0, 3, 1⟩) .empty = .ok (true, .empty) ∧
      CompareOp.same.apply (.range ⟨0, 3, 1⟩) (.range ⟨0, 3, 1⟩) .empty = .ok (false, .empty) :=
  ⟨⟨rfl, rfl⟩, rfl, rfl⟩

end Stepper
