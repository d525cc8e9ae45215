import Stepper.Proofs.Execution.Stack

/-!
# Runs that stand still at a fault

What the stack is like when an exception arises can be seen from a run in which the exception
changes nothing: no frame is left, so the run ends in the very state in which the exception has
arisen. In such a run the line of a frame is made part of what is executed, too: a frame is at the
line of a statement for as long as the statement is executed, and then again at the line where it
was.

* `Evaluation.atLine`: works at a line, and goes back to the line before.
* `Evaluation.inFrameStill`: the body of a call, whose frame is left only if the body is not
  interrupted.
* `Manner.still`: the manner of running that works at lines and leaves frames in these ways.
* `Program.runStill`: a run of this kind.
-/

namespace Stepper

namespace Evaluation

/-- Works at the line of `loc`. When `x` is done, the frame is at the line again where it was; an
interrupt leaves it where it is. -/
def atLine (loc : Location) (x : Evaluation α) : Evaluation α := fun m =>
  (x (m.enterLine loc.line)).bind fun
    | (.ok a, m') => .ended (.ok a, m'.enterLine m.frame.line)
    | (.error i, m') => .ended (.error i, m')

/-- Runs the `body` of a call in a `frame` of its own, which an interrupt does not leave. -/
def inFrameStill (frame : Frame) (body : Evaluation α) : Evaluation α := fun m =>
  (body (m.push frame)).bind fun
    | (.ok a, m') => .ended (.ok a, m'.pop)
    | (.error i, m') => .ended (.error i, m')

end Evaluation

/-- Nothing comes before the acts. A statement stands at its line from its start to its end, and so
does the condition of an arm; only a body that is not interrupted leaves its frame. -/
def Manner.still : Manner := ⟨.silent, Evaluation.atLine, Evaluation.inFrameStill⟩

namespace Manner

variable (loc : Location) (frame : Frame) (body : Evaluation α)

@[simp] theorem watch_still : still.watch = .silent := rfl

@[simp] theorem atLine_still : still.atLine loc body = .atLine loc body := rfl

@[simp] theorem inFrame_still : still.inFrame frame body = .inFrameStill frame body := rfl

end Manner

/-- Executes the statement `s`, standing still if it is interrupted. -/
abbrev Stmt.execStill (call : Caller) (limit : Nat) (s : Stmt) : Evaluation Flow :=
  s.execIn .still call limit

/-- Executes the statements of `body` in order, each at its line, standing still if one is
interrupted. -/
abbrev execBlockStill (call : Caller) (limit : Nat) (body : List Stmt) : Evaluation Flow :=
  execBlockIn .still call limit body

/-- Calls a function, if `left` is not zero; its frame stays if the body is interrupted. -/
abbrev callStill (limit left : Nat) : Caller := callIn .still limit left

/-- The run of `p` that stands still where it is interrupted, with the flow or the interrupt it ends
in. -/
def Program.runStill (p : Program) (limit : Nat) : Execution (Except Interrupt Flow × Machine) :=
  execBlockStill (callStill limit callLimit) limit p.body Machine.start

end Stepper
