import Stepper.Builtin.Conversion
import Stepper.Operator

/-!
# Calls of builtin functions

* `Builtin.call`: the value of a call, and the text that it prints. Only `print` prints, and only
  `print` takes keywords.
-/

namespace Stepper

open Operation

/-- The arguments of a call by name, `name=value`, in the order of the call. -/
abbrev Keywords := List (String × Value)

namespace Operation

/-- Fails unless the arguments are from `least` to `most` in number. -/
def checkArguments (function : String) (least most : Nat) (args : List Value) : Operation Unit :=
  if least ≤ args.length && args.length ≤ most then pure ()
  else fail (.argumentCount function least most args.length)

/-- The only one of `args`; the fault names the `function`. -/
def oneArgument (function : String) (args : List Value) : Operation Value := do
  checkArguments function 1 1 args
  return args.headD .none

/-- The only one of `args`, or `none` if there is no argument; the fault names the `function`. -/
def optionalArgument (function : String) (args : List Value) : Operation (Option Value) := do
  checkArguments function 0 1 args
  return args.head?

/-- What stands between the texts that are printed, and what follows them: `separator` and `ending`,
unless the arguments `sep` and `end` say otherwise. -/
def printLayout (separator ending : String) : Keywords → Operation (String × String)
  | [] => return (separator, ending)
  | (name, value) :: rest =>
    if name == "sep" || name == "end" then
      match value with
      | .none => printLayout separator ending rest
      | .str t =>
        if name == "sep" then printLayout t ending rest else printLayout separator t rest
      | v => fail (.printKeywordNotText name v.kind)
    else
      fail (.printKeyword name)

/-- The text that a call of `print` prints. -/
def printed (args : List Value) (keywords : Keywords) : Operation String := do
  let (separator, ending) ← printLayout " " "\n" keywords
  return separator.intercalate (← args.mapM text) ++ ending

/-- The value of `len(v)`: how many items or characters `v` has. -/
def length (v : Value) : Operation Value := do
  match ← look (·.size? v) with
  | some n => return .int (Int64.ofNat n)
  | none => fail (.noLength v.kind)

/-- The value of `range(stop)`, `range(start, stop)` or `range(start, stop, step)`. -/
def makeRange (args : List Value) : Operation Value := do
  checkArguments Builtin.range.name 1 3 args
  let r : Range :=
    match ← args.mapM integer with
    | [stop] => ⟨0, stop, 1⟩
    | [start, stop] => ⟨start, stop, 1⟩
    | [start, stop, step] => ⟨start, stop, step⟩
    | _ => ⟨0, 0, 1⟩
  if r.step = 0 then fail .zeroStep else return .range r

/-- The value of `abs(v)`. Of whole numbers, only the least has none. -/
def absolute (v : Value) : Operation Value :=
  match v with
  | .int n => ofResult ((Arithmetic.absolute n).map .ofNumber)
  | .bool b => return .int (if b then 1 else 0)
  | .float x => return .float x.abs
  | v => fail (.noAbsoluteValue v.kind)

/-- The better of the values, `best` being the best so far. A value replaces it only if it is
better, so of equally good ones the first is taken. -/
def bestFrom (op : CompareOp) (wanted : Ordering) (best : Value) : List Value → Operation Value
  | [] => return best
  | v :: rest => do
    let order ← compare op v best
    bestFrom op wanted (if order == wanted then v else best) rest

/-- The value of `min` or `max`: the first of the best values, among `args` or the items of the only
one. A value is better if `op` compares it as `wanted` to the best one before. -/
def extreme (function : Builtin) (op : CompareOp) (wanted : Ordering) (args : List Value) :
    Operation Value := do
  let candidates ←
    match args with
    | [] => fail (.nothingToCompare function)
    | [v] => items v
    | _ => pure args
  match candidates with
  | [] => fail (.nothingIn function)
  | first :: rest => bestFrom op wanted first rest

/-- The sum of the values, added one after the other to `total`. -/
def sumFrom (total : Value) : List Value → Operation Value
  | [] => return total
  | v :: rest => do sumFrom (← add total v) rest

/-- The value of `sum(items)` or `sum(items, total)`; the total may be no text. -/
def sum (args : List Value) : Operation Value := do
  checkArguments Builtin.sum.name 1 2 args
  let total := (args[1]?).getD (.int 0)
  if total.kind = .str then fail .sumOfText
  sumFrom total (← items (args.headD .none))

end Operation

namespace Builtin

/-- The value of a call without keywords of a function other than `print`. -/
def value (b : Builtin) (args : List Value) : Operation Value :=
  match b with
  | print => return .none
  | len => do length (← oneArgument b.name args)
  | range => makeRange args
  | str => do
    match ← optionalArgument b.name args with
    | some v => return .str (← text v)
    | none => return .str ""
  | repr => do return .str (← Operation.repr (← oneArgument b.name args))
  | int => do
    match ← optionalArgument b.name args with
    | some v => return .int (← toWhole v)
    | none => return .int 0
  | float => do
    match ← optionalArgument b.name args with
    | some v => return .float (← toFloat v)
    | none => return .float 0.0
  | bool => do
    match ← optionalArgument b.name args with
    | some v => look fun s => .bool (s.truth v)
    | none => return .bool false
  | abs => do absolute (← oneArgument b.name args)
  | min => extreme b .lt .lt args
  | max => extreme b .gt .gt args
  | sum => Operation.sum args
  | type => do
    return .str ("<class '" ++ (← oneArgument b.name args).kind.name ++ "'>")

/-- The value of a call of `b`, and the text that it prints. Only `print` takes `keywords`. -/
def call (b : Builtin) (args : List Value) (keywords : Keywords) :
    Operation (Value × String) :=
  match b with
  | print => do return (.none, ← printed args keywords)
  | b =>
    if keywords.isEmpty then do return (← b.value args, "")
    else fail (.keywordsNotTaken b.name)

end Builtin

end Stepper
