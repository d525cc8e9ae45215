import Stepper.Stmt.Exec

/-!
# Running a program

* `Outcome`: how a run ends.
* `Program.run`: the execution of a program from the state in which programs start.
-/

namespace Stepper

/-- How a run ends. -/
inductive Outcome where
  | completed
  | aborted
  | raised (e : Exception)
  /-- A loop made as many turns as it was allowed. -/
  | unfinished

/-- The outcome of a program body that has ended with `result` in the state `m`. An exception leaves
the program's own frame last. -/
def Outcome.of (result : Except Interrupt Flow) (m : Machine) : Outcome :=
  match result with
  | .ok _ => completed
  | .error .aborted => aborted
  | .error .unfinished => unfinished
  | .error (.raised e) => raised (e.leave ⟨moduleName, m.stack.globals.line⟩)

/-- The execution of a program in which no loop makes more turns than `limit`: how it ends, and in
which state. -/
def Program.run (p : Program) (limit : Nat) : Execution (Outcome × Machine) :=
  (execBlock (callWithin limit callLimit) limit p.body Machine.start).bind fun (result, m) =>
    .ended (Outcome.of result m, m)

end Stepper
