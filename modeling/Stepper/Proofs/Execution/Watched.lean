import Stepper.Run

/-!
# Runs under watch

A run shows its state only at the pauses. Here a watch comes before every act of a run: it sees the
state in which the act is about to be done, and what the act works on besides.

* `Stmt.execWatched`, `execBlockWatched`, `callWatched`: execution and calls under `watch`.
* `Program.runWatched`: a run under `watch`. If the watch does nothing, it is the run itself:
  `Program.runWatched_silent`.
-/

namespace Stepper

section Watched

variable (watch : Watch) (call : Caller) (limit : Nat)

/-- Executes a statement under `watch`. -/
abbrev Stmt.execWatched (s : Stmt) : Evaluation Flow := s.execIn (.watched watch) call limit

/-- Executes statements under `watch`, in order, until control goes elsewhere. -/
abbrev execBlockWatched (body : List Stmt) : Evaluation Flow :=
  execBlockIn (.watched watch) call limit body

/-- Executes, under `watch`, the first arm whose condition is true, or else `otherwise`. -/
abbrev execBranchesWatched (otherwise : Evaluation Flow) (branches : List Branch) :
    Evaluation Flow :=
  execBranchesIn (.watched watch) call limit otherwise branches

/-- Executes, under `watch`, the last arm of a conditional, if there is one. -/
abbrev execOtherwiseWatched (otherwise : Option (List Stmt)) : Evaluation Flow :=
  execOtherwiseIn (.watched watch) call limit otherwise

end Watched

/-- Calls a function under `watch`, if there are calls left. -/
abbrev callWatched (watch : Watch) (limit left : Nat) : Caller :=
  callIn (.watched watch) limit left

/-- The execution of a program under `watch`. -/
def Program.runWatched (p : Program) (watch : Watch) (limit : Nat) :
    Execution (Outcome × Machine) :=
  (execBlockWatched watch (callWatched watch limit callLimit) limit p.body Machine.start).bind
    fun (result, m) => .ended (Outcome.of result m, m)

/-- A run under a watch that does nothing is the run: `plain` is `watched silent`. -/
theorem Program.runWatched_silent (p : Program) (limit : Nat) :
    p.runWatched .silent limit = p.run limit := rfl

end Stepper
