import Stepper.Builtin.Call

/-!
# Results of operations

Many operations do not depend on the store: they are `pure` of their result, or they fail.

* `Operation.pure_inj`, `Operation.pure_ne_fail`: which of these an operation is, and with what, is
  seen on any store.
* `ArithOp.apply_int`: an operator on whole numbers has the result of `Arithmetic.whole`.
* `Builtin.call_value`: what a builtin function yields, beside what it prints.
-/

namespace Stepper

namespace Operation

theorem pure_inj {a b : α} : (pure a : Operation α) = pure b ↔ a = b := by
  constructor
  · intro h
    have hrun : (.ok (a, .empty) : Except Failure (α × Store)) = .ok (b, .empty) :=
      congrFun h .empty
    cases hrun
    rfl
  · rintro rfl
    rfl

theorem pure_ne_fail {a : α} {fault : Fault} : (pure a : Operation α) ≠ fail fault := by
  intro h
  have hrun : (.ok (a, .empty) : Except Failure (α × Store)) = .error ⟨fault, .empty⟩ :=
    congrFun h .empty
  cases hrun

theorem oneArgument_singleton (function : String) (v : Value) :
    oneArgument function [v] = pure v := rfl

end Operation

open Operation

/-- The operator `op` on two whole numbers `a` and `b`, as `Arithmetic.whole` calculates it. -/
theorem ArithOp.apply_int (op : ArithOp) (a b : Int64) :
    op.apply (.int a) (.int b) = ofResult ((Arithmetic.whole op a b).map .ofNumber) := by
  cases op <;> rfl

/-- Without keywords a builtin function `b` that does not print has its value as the result. -/
theorem Builtin.call_value {b : Builtin} (hprint : b ≠ .print) (args : List Value) :
    (·.1) <$> b.call args [] = b.value args := by
  have hcall : b.call args [] = do return (← b.value args, "") := by
    cases b with
    | print => exact absurd rfl hprint
    | _ => rfl
  simp [hcall]

end Stepper
