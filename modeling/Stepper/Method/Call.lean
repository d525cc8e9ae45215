import Stepper.Builtin.Call
import Stepper.Text.Case

/-!
# Calls of methods

* `Method.call`: the value of a call of a method of a list, a text or a dict. `append` and `pop`
  change the list; all other methods leave every container as it is.
-/

namespace Stepper

open Operation

namespace Operation

/-- The text that an argument is; `role` names the argument. -/
def textArgument (role : String) (v : Value) : Operation String :=
  match v with
  | .str t => return t
  | v => fail (.notText role v.kind)

/-- The argument, if it is there and not `None`. -/
def givenArgument (function : String) (args : List Value) : Operation (Option Value) := do
  match ← optionalArgument function args with
  | some .none => return none
  | given => return given

/-- Takes an item out of the list at `place`: the last one, or the one at `index`. -/
def popItem (place : Nat) (index : Option Value) : Operation Value := do
  let items ← look (·.list place)
  if items.isEmpty then fail .popFromEmpty
  let size := (items.size : Int)
  let index ←
    match index with
    | some v => pure (← integer v).toInt
    | none => pure (-1)
  let index := if index < 0 then index + size else index
  if index < 0 || size ≤ index then fail .popOutOfRange
  modifyList place (·.eraseIdxIfInBounds index.toNat)
  return items.getD index.toNat .none

/-- The texts that the items are, which are counted from `index`. -/
def textItems (index : Nat) : List Value → Operation (List String)
  | [] => return []
  | .str t :: rest => do return t :: (← textItems (index + 1) rest)
  | v :: _ => fail (.itemNotText index v.kind)

/-- The pieces of `t`: its words, or what stands between the separators. -/
def splitText (t : String) (separator : Option Value) : Operation (List String) :=
  match separator with
  | none => return Text.words t
  | some v => do
    let separator ← textArgument "separator" v
    if separator.isEmpty then fail .emptySeparator else return Text.piecesAt separator t

/-- The value of a call of `m`, a method of the list at `place`. -/
def callOnList (place : Nat) (m : Method) (args : List Value) : Operation Value :=
  match m with
  | .append => do
    let item ← oneArgument m.name args
    modifyList place (·.push item)
    return .none
  | .pop => do popItem place (← optionalArgument m.name args)
  | m => fail (.noAttribute .list m.name)

/-- The value of a call of `m`, a method of the text `t`. -/
def callOnText (t : String) (m : Method) (args : List Value) : Operation Value :=
  match m with
  | .upper => do
    checkArguments m.name 0 0 args
    return .str (Text.upper t)
  | .lower => do
    checkArguments m.name 0 0 args
    return .str (Text.lower t)
  | .strip => do
    match ← givenArgument m.name args with
    | none => return .str (Text.trim t)
    | some v => return .str (Text.trimOf (← textArgument "strip arg" v) t)
  | .join => do
    let parts ← items (← oneArgument m.name args)
    return .str (t.intercalate (← textItems 0 parts))
  | .split => do
    let pieces ← splitText t (← givenArgument m.name args)
    newList (pieces.map Value.str).toArray
  | m => fail (.noAttribute .str m.name)

/-- The value of a call of `m`, a method of the dict at `place`. -/
def callOnDict (place : Nat) (m : Method) (args : List Value) : Operation Value :=
  match m with
  | .keys => do
    checkArguments m.name 0 0 args
    newList (← look fun s => (s.dict place).keys).toArray
  | .values => do
    checkArguments m.name 0 0 args
    newList (← look fun s => (s.dict place).values).toArray
  | .get => do
    checkArguments m.name 1 2 args
    let key := args.headD .none
    checkKey key
    let found ← look fun s => (s.dict place).get? key
    return found.getD ((args[1]?).getD .none)
  | m => fail (.noAttribute .dict m.name)

end Operation

/-- The value of a call of `m`, bound to `receiver`. No method takes `keywords`. -/
def Method.call (receiver : Value) (m : Method) (args : List Value) (keywords : Keywords) :
    Operation Value :=
  if !keywords.isEmpty then fail (.keywordsNotTaken m.name)
  else
    match receiver with
    | .list place => callOnList place m args
    | .str t => callOnText t m args
    | .dict place => callOnDict place m args
    | v => fail (.noAttribute v.kind m.name)

end Stepper
