import Stepper.Fault
import Stepper.Frame
import Stepper.Program

/-!
# Exceptions

* `Exception`: a fault, where it arose, and the frames that it has left.
* `Traceback`: an exception as it is reported, with `Traceback.render`: the frames from the
  outermost to the innermost, each with its line of the program, and what went wrong.
-/

namespace Stepper

/-- A frame that an exception has left: its name and the line that it was at. -/
structure TraceEntry where
  name : String
  line : Nat
  deriving DecidableEq

/-- A `fault` that arose at `loc`, on its way out of the frames. -/
structure Exception where
  fault : Fault
  loc : Location
  /-- The frames that it has left, the innermost first. -/
  trace : List TraceEntry

/-- The exception `e` after it has left the frame of `entry`. -/
def Exception.leave (e : Exception) (entry : TraceEntry) : Exception :=
  { e with trace := e.trace ++ [entry] }

/-- An exception as it is reported. Its frames are in `trace`, the innermost first. -/
structure Traceback where
  kind : ExceptionKind
  message : String
  loc : Location
  /-- The frames that the exception has left, the innermost first. -/
  trace : List TraceEntry

namespace Traceback

/-- The report of `e`. -/
def ofException (e : Exception) : Traceback :=
  ⟨e.fault.kind, e.fault.message, e.loc, e.trace⟩

/-- The last line: `kind: message`, or the kind alone if there is no message. -/
def summary (t : Traceback) : String :=
  if t.message.isEmpty then t.kind.name else t.kind.name ++ ": " ++ t.message

/-- The frames that are shown, the outermost first. An exception that has left no frame is shown as
if in `moduleName`, where it arose. -/
def entries (t : Traceback) : List TraceEntry :=
  if t.trace.isEmpty then [⟨moduleName, t.loc.line⟩] else t.trace.reverse

/-- The lines of one frame: its place, and the text of `entry.line` in `p` unless it is blank. -/
def entryText (p : Program) (entry : TraceEntry) : String :=
  let place :=
    "  File \"" ++ sourceName ++ "\", line " ++ toString entry.line ++ ", in " ++ entry.name ++ "\n"
  match p.lineText? entry.line with
  | some text => if text.isEmpty then place else place ++ "    " ++ text ++ "\n"
  | none => place

/-- The report of `t` as text, for the program `p`. -/
def render (t : Traceback) (p : Program) : String :=
  "Traceback (most recent call last):\n" ++ String.join (t.entries.map (entryText p)) ++ t.summary

end Traceback

end Stepper
