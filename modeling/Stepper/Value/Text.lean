import Stepper.Number.Layout
import Stepper.Text.Quoted
import Stepper.Value.Compare

/-!
# The text of values

* `Store.repr`: a value as it could stand in a program. Containers are written item by item, at most
  `nestingLimit` deep.
* `Store.text`: a value as it is printed: a text as it is, and any other value as `Store.repr`
  writes it.
-/

namespace Stepper

/-- The text of `r`; a step of one is not shown. -/
def Range.text (r : Range) : String :=
  let ends := "range(" ++ toString r.start.toInt ++ ", " ++ toString r.stop.toInt
  if r.step = 1 then ends ++ ")" else ends ++ ", " ++ toString r.step.toInt ++ ")"

/-- The text of a value that is no container. -/
def Value.scalarText : Value → String
  | .none => "None"
  | .bool b => if b then "True" else "False"
  | .int n => toString n.toInt
  | .float x => FloatLayout.value.render x
  | .str s => Text.literal s
  | .range r => r.text
  | .function f => "<function " ++ f.name ++ ">"
  | .builtin b => "<built-in function " ++ b.name ++ ">"
  | .method receiver m =>
    "<built-in method " ++ m.name ++ " of " ++ receiver.kind.name ++ " object>"
  | .list _ | .dict _ => ""

namespace Store

/-- The text of a value, looking at `levels` levels of it. -/
def reprWithin (s : Store) : Nat → Value → Except TooDeep String
  | 0, _ => .error {}
  | levels + 1, v =>
    match v with
    | .list place => do
      let items ← (s.list place).toList.mapM (s.reprWithin levels)
      return "[" ++ ", ".intercalate items ++ "]"
    | .dict place => do
      let entries ← (s.dict place).entries.mapM fun (key, value) => do
        return (← s.reprWithin levels key) ++ ": " ++ (← s.reprWithin levels value)
      return "\x7b" ++ ", ".intercalate entries ++ "\x7d"
    | scalar => return scalar.scalarText

/-- The text of `v` in `s`, as it could stand in a program. -/
def repr (s : Store) (v : Value) : Except TooDeep String :=
  s.reprWithin (nestingLimit + 1) v

/-- The text of a value in `s`, as it is printed. -/
def text (s : Store) : Value → Except TooDeep String
  | .str t => return t
  | v => s.repr v

end Store

end Stepper
