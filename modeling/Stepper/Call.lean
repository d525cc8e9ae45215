import Stepper.Execution
import Stepper.Item
import Stepper.Method.Call

/-!
# Calls

* `Function.bindArguments`: the bindings with which a call of a function starts.
* `Caller`: how functions of the program are called.
* `callValue`: a call of any value.
-/

namespace Stepper

namespace Function

/-- A slot for each of `f.params`. The arguments by position, `args`, fill the first ones. -/
def firstSlots (f : Function) (args : List Value) : List (Option Value) :=
  args.map some ++ List.replicate (f.params.length - args.length) none

/-- Puts each argument by name into the one of `slots` that belongs to its parameter, which must be
free. -/
def fillSlots (f : Function) (slots : List (Option Value)) :
    Keywords → Except Fault (List (Option Value))
  | [] => .ok slots
  | (name, value) :: rest =>
    match f.params.idxOf? name with
    | none => .error (.unknownKeyword f.name name)
    | some i =>
      if (slots.getD i none).isSome then .error (.argumentTwice f.name name)
      else f.fillSlots (slots.set i (some value)) rest

/-- The bindings with which a call of `f` starts: each parameter with its argument, in the order of
`f.params`. -/
def bindArguments (f : Function) (args : List Value) (keywords : Keywords) :
    Except Fault (List (String × Value)) := do
  if f.params.length < args.length then
    .error (.tooManyArguments f.name f.params.length args.length)
  let slots ← f.fillSlots (f.firstSlots args) keywords
  let missing := (f.params.zip slots).filter (·.2.isNone)
  if missing.isEmpty then
    let values := slots.filterMap id
    return (f.params.zip values).foldl (fun bound (p, v) => Frame.bindIn p v bound) []
  else
    .error (.missingArguments f.name (missing.map (·.1)))

end Function

/-- How a function of the program is called: `call f args keywords loc`, from the place `loc`. -/
abbrev Caller := Function → List Value → Keywords → Location → Evaluation Value

open Evaluation

/-- Calls the value `callee`. Functions of the program are called by `call`; the others pause
nowhere. -/
def callValue (call : Caller) (callee : Value) (args : List Value) (keywords : Keywords)
    (loc : Location) : Evaluation Value :=
  match callee with
  | .function f => call f args keywords loc
  | .builtin b => do
    let (value, printed) ← perform (b.call args keywords) loc
    modify (·.write printed)
    return value
  | .method receiver m => perform (m.call receiver args keywords) loc
  | v => raise (.notCallable v.kind) loc

end Stepper
