import Stepper.Operation
import Stepper.Text.Blank

/-!
# Conversions to numbers

* `Operation.toWhole`: the whole number of a number, cut off towards zero, or of its text. A text
  may have blanks around it and underscores anywhere.
* `Operation.toFloat`: the float of a number or of its text.
-/

namespace Stepper.Operation

/-- The float `2 ^ 63`, from which on there is no whole number of 64 bits. -/
def wholeBound : Float := Float.ofNat (2 ^ 63)

/-- The float `x` without its fraction: cut off towards zero. -/
def cutOff (x : Float) : Float :=
  if x < 0.0 then x.ceil else x.floor

/-- The whole number `cutOff x`, unless `x` is a NaN or this is out of range. -/
def wholeOfFloat (x : Float) : Operation Int64 :=
  if x.isNaN then fail .notANumber
  else if wholeBound ≤ (cutOff x).abs then fail .integerRange
  else return (cutOff x).toInt64

/-- The value of `int(v)`. -/
def toWhole (v : Value) : Operation Int64 :=
  match v with
  | .int n => return n
  | .bool b => return if b then 1 else 0
  | .float x => wholeOfFloat x
  | .str t =>
    match Number.int64? ((Text.trim t).toList.filter (· != '_')) with
    | some n => return n
    | none => fail (.notWholeLiteral (Text.literal t))
  | v => fail (.notNumeric .int v.kind)

/-- The value of `float(v)`. -/
def toFloat (v : Value) : Operation Float :=
  match v.number?, v with
  | some n, _ => return n.toFloat
  | none, .str t =>
    match Number.float? (Text.trim t).toList with
    | some x => return x
    | none => fail (.notFloatLiteral (Text.literal t))
  | none, v => fail (.notNumeric .float v.kind)

end Stepper.Operation
