import Stepper.Fault
import Stepper.Frame
import Stepper.Output
import Stepper.Store

/-!
# The state of a running program

* `Machine`: the store, the frames and the output of a program.
* `Machine.load`, `Machine.bind`: reading and binding a name. A function's own names are those of
  its frame; all others are global, and the builtin functions stand behind the global names.
-/

namespace Stepper

/-- The state of a running program. -/
structure Machine where
  store : Store
  stack : CallStack
  output : Output

namespace Machine

/-- The state in which a program starts. The name `__name__` is bound from the start. -/
def start : Machine where
  store := .empty
  stack := CallStack.start.modifyGlobals (·.set "__name__" (.str "__main__"))
  output := .empty

/-- The innermost frame of `m`. -/
def frame (m : Machine) : Frame :=
  m.stack.current

/-- The value of `name`: in the innermost frame if it is one of its own names, and otherwise in the
program's own frame or among the built-in functions. -/
def load (m : Machine) (name : String) : Except Fault Value :=
  if m.frame.owns name then
    match m.frame.get? name with
    | some v => .ok v
    | none => .error (.unboundLocal name)
  else
    match m.stack.globals.get? name with
    | some v => .ok v
    | none =>
      match Builtin.ofName? name with
      | some b => .ok (.builtin b)
      | none => .error (.undefinedName name)

/-- Binds `name` to `value` in the frame that it belongs to. -/
def bind (m : Machine) (name : String) (value : Value) : Machine :=
  if m.frame.owns name then
    { m with stack := m.stack.modifyCurrent (·.set name value) }
  else
    { m with stack := m.stack.modifyGlobals (·.set name value) }

/-- The innermost frame comes to `line`. -/
def enterLine (m : Machine) (line : Nat) : Machine :=
  { m with stack := m.stack.modifyCurrent fun f => { f with line := line } }

/-- Prints `text`. -/
def write (m : Machine) (text : String) : Machine :=
  { m with output := m.output.write text }

/-- Enters the call of the frame `f`. -/
def push (m : Machine) (f : Frame) : Machine :=
  { m with stack := m.stack.push f }

/-- Leaves the innermost call. -/
def pop (m : Machine) : Machine :=
  { m with stack := m.stack.pop }

end Machine

end Stepper
