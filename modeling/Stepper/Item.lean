import Stepper.Operation

/-!
# Items and members of values

* `Operation.getItem`, `Operation.setItem`: reading and replacing an item of a container. Negative
  indices count from the end.
* `Operation.getMember`: a method of a value; values have no other members.
-/

namespace Stepper.Operation

/-- The position of an index among `size` items. -/
def position (what : Indexed) (key : Value) (size : Nat) : Operation Nat :=
  match key.integer? with
  | none => fail (.indexNotInteger what key.kind)
  | some index =>
    let size := Int64.ofNat size
    let index := if index < 0 then index + size else index
    if index < 0 || size ≤ index then fail (.outOfRange what) else return index.toInt.toNat

/-- The value of `container[key]`. -/
def getItem (container key : Value) : Operation Value :=
  match container with
  | .list place => do
    let items ← look (·.list place)
    let i ← position .list key items.size
    return items.getD i .none
  | .str t => do
    let i ← position .text key t.length
    return .str (String.ofList (t.toList.drop i |>.take 1))
  | .range r => do
    let i ← position .range key r.size
    return .int (r.item i)
  | .dict place => do
    checkKey key
    match ← look fun s => (s.dict place).get? key with
    | some value => return value
    | none => fail (.noKey (← look fun s => (s.repr key).toOption.getD ""))
  | v => fail (.notSubscriptable v.kind)

/-- Does `container[key] = value`: replaces an item of a list, or adds an entry to a dict. -/
def setItem (container key value : Value) : Operation Unit :=
  match container with
  | .list place => do
    let i ← position .listAssignment key (← look fun s => (s.list place).size)
    modifyList place (·.setIfInBounds i value)
  | .dict place => do
    checkKey key
    modifyDict place (·.insert key value)
  | v => fail (.noItemAssignment v.kind)

/-- The value of `receiver.name`: a method, bound to `receiver`. -/
def getMember (receiver : Value) (name : String) : Operation Value :=
  match Method.ofName? receiver.kind name with
  | some m => return .method receiver m
  | none => fail (.noAttribute receiver.kind name)

end Stepper.Operation
