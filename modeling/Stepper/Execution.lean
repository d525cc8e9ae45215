import Stepper.Exception
import Stepper.Machine
import Stepper.Operation

/-!
# Executions

An execution is a calculation that pauses. At a pause it shows the state of the program, and goes on
when it gets a reply.

* `Execution`: the calculation: ended with a result, or paused, with what follows each reply.
* `Execution.drive`: runs an execution; a hook replies at the pauses.
* `Evaluation`: an execution that works on the state of a program and may be interrupted.
-/

namespace Stepper

/-- What is seen at a pause: the `line` of the statement that has been executed, and the state,
`machine`. -/
structure Pause where
  line : Nat
  machine : Machine

/-- How a program goes on after a pause. There is nothing to stop at but the statements, so
`goOn` is the same as `step`. -/
inductive Answer where
  | step | goOn | abort
  deriving DecidableEq

/-- The reply at a pause. -/
structure Reply where
  answer : Answer
  /-- How many characters the window of the output keeps, if it is trimmed. -/
  keep : Option Nat

/-- A calculation that has `ended`, or is `paused` and goes on by `resume` once there is a reply. -/
inductive Execution (α : Type) where
  | ended (result : α)
  | paused (pause : Pause) (resume : Reply → Execution α)

namespace Execution

/-- The execution that goes on with the result of another. -/
def bind (x : Execution α) (f : α → Execution β) : Execution β :=
  match x with
  | ended a => f a
  | paused p resume => paused p fun reply => (resume reply).bind f

/-- Runs an execution in `m`; the `hook` replies at each pause. -/
def drive [Monad m] (hook : Pause → m Reply) : Execution α → m α
  | ended a => return a
  | paused p resume => do drive hook (resume (← hook p))

end Execution

/-- Why an evaluation has no result: an exception, an answer that ends the run, or `unfinished`
loops. -/
inductive Interrupt where
  | raised (e : Exception)
  | aborted
  /-- A loop made as many turns as it was allowed. -/
  | unfinished

/-- The interrupt after it has left `frame`; only an exception notes that. -/
def Interrupt.leave (frame : Frame) : Interrupt → Interrupt
  | raised e => raised (e.leave ⟨frame.name, frame.line⟩)
  | i => i

/-- An execution on the state of a program: from a machine to the result, or an interrupt, and the
machine then. -/
def Evaluation (α : Type) := Machine → Execution (Except Interrupt α × Machine)

namespace Evaluation

/-- The evaluation that goes on with the result of another, unless that was interrupted. -/
def bind (x : Evaluation α) (f : α → Evaluation β) : Evaluation β := fun m =>
  (x m).bind fun
    | (.ok a, m) => f a m
    | (.error i, m) => .ended (.error i, m)

instance : Monad Evaluation where
  pure a := fun m => .ended (.ok a, m)
  bind := bind

/-- Interrupts by `i`, with the state as it is. -/
def interrupt (i : Interrupt) : Evaluation α := fun m => .ended (.error i, m)

/-- Raises `fault` at `loc`. -/
def raise (fault : Fault) (loc : Location) : Evaluation α :=
  interrupt (.raised ⟨fault, loc, []⟩)

/-- Tells `f` of the state, which stays as it is. -/
def look (f : Machine → α) : Evaluation α := fun m => .ended (.ok (f m), m)

/-- Changes the state by `f`. -/
def modify (f : Machine → Machine) : Evaluation Unit := fun m => .ended (.ok (), f m)

/-- Works on the store by `op`; a fault is raised at `loc`, and what `op` has done until then
stays. -/
def perform (op : Operation α) (loc : Location) : Evaluation α := fun m =>
  match op m.store with
  | .ok (a, store) => .ended (.ok a, { m with store := store })
  | .error failure =>
    .ended (.error (.raised ⟨failure.fault, loc, []⟩), { m with store := failure.store })

/-- Comes to the line of `loc`. -/
def enterLine (loc : Location) : Evaluation Unit :=
  modify (·.enterLine loc.line)

/-- Pauses after the statement at `loc`. The output is trimmed first, if the reply says so, and then
the answer is obeyed. -/
def boundary (loc : Location) : Evaluation Unit := fun m =>
  .paused ⟨loc.line, m⟩ fun reply =>
    let m := { m with output := reply.keep.elim m.output m.output.trim }
    match reply.answer with
    | .step | .goOn => .ended (.ok (), m)
    | .abort => .ended (.error .aborted, m)

/-- Runs the `body` of a call in `frame`, and leaves the frame whatever happens. -/
def inFrame (frame : Frame) (body : Evaluation α) : Evaluation α := fun m =>
  (body (m.push frame)).bind fun
    | (.ok a, m) => .ended (.ok a, m.pop)
    | (.error i, m) => .ended (.error (i.leave m.frame), m.pop)

end Evaluation

end Stepper
