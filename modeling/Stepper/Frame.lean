import Stepper.Value

/-!
# Frames

* `Frame`: the names that one activation of a function has bound, in the order in which they were
  first bound, and the line that it is at.
* `Frame.set`: binds a name anew. A name that is bound already keeps its place.
* `CallStack`: the frame of the program itself, which is always there, and those of the calls that
  have not ended, the innermost first.
-/

namespace Stepper

/-- The name of the program's own frame. -/
def moduleName : String := "<module>"

/-- The `bindings` and the `line` of a call, or of the program itself. -/
structure Frame where
  name : String
  /-- The function that is called, if the frame is that of a call. -/
  function? : Option Function
  line : Nat
  bindings : List (String × Value)
  deriving Inhabited

namespace Frame

/-- A frame called `name` without bindings, which has not come to any line. -/
def ofName (name : String) : Frame :=
  ⟨name, none, 0, []⟩

/-- The frame of a call of `f`, at the line of its definition. -/
def ofCall (f : Function) (bindings : List (String × Value)) : Frame :=
  ⟨f.name, some f, f.loc.line, bindings⟩

/-- The value of `name` in `f`. -/
def get? (f : Frame) (name : String) : Option Value :=
  f.bindings.lookup name

/-- The bindings with `value` for `name`: in the place of the old value, or at the end. -/
def bindIn (name : String) (value : Value) : List (String × Value) → List (String × Value)
  | [] => [(name, value)]
  | (n, v) :: rest => if n = name then (n, value) :: rest else (n, v) :: bindIn name value rest

/-- The frame `f` with `value` for `name`. -/
def set (f : Frame) (name : String) (value : Value) : Frame :=
  { f with bindings := bindIn name value f.bindings }

/-- Whether `f` is the frame of a call of a function with `name` among its own names. -/
def owns (f : Frame) (name : String) : Bool :=
  f.function?.any (·.isLocal name)

end Frame

/-- The program's own frame, `globals`, and the frames of the calls that have not ended, innermost
first. -/
structure CallStack where
  globals : Frame
  calls : List Frame

namespace CallStack

/-- The stack of a program that has not called anything. -/
def start : CallStack := ⟨.ofName moduleName, []⟩

/-- The innermost frame: that of the last call, or `globals`. -/
def current (s : CallStack) : Frame :=
  s.calls.headD s.globals

/-- Changes the innermost frame by `f`. -/
def modifyCurrent (s : CallStack) (f : Frame → Frame) : CallStack :=
  match s.calls with
  | [] => { s with globals := f s.globals }
  | top :: rest => { s with calls := f top :: rest }

/-- Changes the program's own frame by `f`. -/
def modifyGlobals (s : CallStack) (f : Frame → Frame) : CallStack :=
  { s with globals := f s.globals }

/-- Enters the call of the frame `f`. -/
def push (s : CallStack) (f : Frame) : CallStack :=
  { s with calls := f :: s.calls }

/-- Leaves the innermost call; the program's own frame is never left. -/
def pop (s : CallStack) : CallStack :=
  { s with calls := s.calls.tail }

/-- How many calls of `s` have not ended. -/
def depth (s : CallStack) : Nat :=
  s.calls.length

/-- All frames, `globals` first and the innermost last. -/
def frames (s : CallStack) : List Frame :=
  s.globals :: s.calls.reverse

end CallStack

end Stepper
