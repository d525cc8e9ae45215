import Stepper.Arithmetic
import Stepper.Operation
import Stepper.Text.Pieces

/-!
# Operators

* `ArithOp.apply`: arithmetic on numbers; `+` also joins texts and lists, and `*` repeats them.
* `ArithOp.update`: an operator with assignment, which extends a list in its place.
* `CompareOp.apply`: equality, order, membership and identity.
* `UnaryOp.apply`: signs and negation.
-/

namespace Stepper

open Operation

/-- How often a value repeats a sequence, and `none` if it is no whole number. Negative numbers
count as zero. -/
def Value.times? : Value → Option Nat
  | .int n => some n.toInt.toNat
  | .bool b => some (if b then 1 else 0)
  | _ => Option.none

namespace Operation

/-- The result of `left op right` on numbers. -/
def combine (op : ArithOp) (left right : Value) : Operation Value :=
  match left.number?, right.number? with
  | some a, some b => ofResult ((Arithmetic.numbers op a b).map .ofNumber)
  | _, _ => fail (.unsupportedOperands op left.kind right.kind)

/-- The largest count of items that is told. -/
def countLimit : Nat := 2 ^ 64 - 1

/-- The text `t`, `times` in a row. -/
def repeatText (t : String) (times : Nat) : Operation Value := do
  checkCount (min (t.length * times) countLimit)
  return .str (if t.isEmpty then "" else Nat.repeat (· ++ t) times "")

/-- A new list with the items of the list at `place`, `times` in a row. -/
def repeatList (place times : Nat) : Operation Value := do
  let items ← look (·.list place)
  checkCount (min (items.size * times) countLimit)
  newList (if items.isEmpty then #[] else Nat.repeat (· ++ items) times #[])

/-- The sum `left + right`: of texts, of lists, or of numbers. -/
def add (left right : Value) : Operation Value :=
  match left, right with
  | .str a, .str b => return .str (a ++ b)
  | .list p, .list q => do newList ((← look (·.list p)) ++ (← look (·.list q)))
  | a, b => combine .add a b

/-- The product `left * right`: a text or a list that is repeated, on either side, or the one of
numbers. -/
def multiply (left right : Value) : Operation Value :=
  match left, right, left.times?, right.times? with
  | .str t, _, _, some n => repeatText t n
  | .list place, _, _, some n => repeatList place n
  | _, .str t, some n, _ => repeatText t n
  | _, .list place, some n, _ => repeatList place n
  | a, b, _, _ => combine .mul a b

/-- Whether some item equals `needle`; the items after the first such one are not looked at. -/
def hasEqual (needle : Value) : List Value → Operation Bool
  | [] => return false
  | item :: rest => do
    if ← equals item needle then return true else hasEqual needle rest

/-- Whether `needle` is in `container`. -/
def member (needle container : Value) : Operation Bool :=
  match container with
  | .str whole =>
    match needle with
    | .str part => return Text.hasInside whole part
    | v => fail (.notTextInText v.kind)
  | .list place => do hasEqual needle (← look fun s => (s.list place).toList)
  | .dict place => look fun s => (s.dict place).contains needle
  | .range r => return (needle.integer?.map r.contains).getD false
  | v => fail (.noMembership v.kind)

end Operation

/-- The result of `left op right`. -/
def ArithOp.apply (op : ArithOp) (left right : Value) : Operation Value :=
  match op with
  | .add => Operation.add left right
  | .mul => Operation.multiply left right
  | _ => combine op left right

/-- The value of a name or item after `op=`. A list is extended in its place by the items of the
other side of `+=`. -/
def ArithOp.update (op : ArithOp) (current right : Value) : Operation Value :=
  match op, current with
  | .add, .list place => do
    let extra ← items right
    modifyList place (· ++ extra.toArray)
    return current
  | _, _ => op.apply current right

/-- The truth of `left op right`. -/
def CompareOp.apply (op : CompareOp) (left right : Value) : Operation Bool :=
  match op with
  | .eq => Operation.equals left right
  | .ne => return !(← Operation.equals left right)
  | .lt => return (← Operation.compare op left right) == .lt
  | .le => return (← Operation.compare op left right) != .gt
  | .gt => return (← Operation.compare op left right) == .gt
  | .ge => return (← Operation.compare op left right) != .lt
  | .isIn => member left right
  | .notIn => return !(← member left right)
  | .same => return left.same right
  | .notSame => return !left.same right

/-- The result of `op operand`. -/
def UnaryOp.apply (op : UnaryOp) (operand : Value) : Operation Value :=
  match op, operand with
  | .not, v => look fun s => .bool (!s.truth v)
  | .neg, .int n => ofResult ((Arithmetic.negative n).map .ofNumber)
  | .neg, .bool b => return .int (if b then -1 else 0)
  | .neg, .float x => return .float (-x)
  | .pos, .int n => return .int n
  | .pos, .bool b => return .int (if b then 1 else 0)
  | .pos, .float x => return .float x
  | op, v => fail (.unsupportedOperand op v.kind)

end Stepper
