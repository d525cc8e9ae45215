import Stepper.Fault
import Stepper.Value.Text

/-!
# Operations on the store

* `Operation`: a calculation that may add and change containers, or fail. What it has done to the
  store before it fails stays done.
* `Operation.newList`, `Operation.newDict`: a new container.
* `Operation.equals`, `Operation.compare`, `Operation.repr`, `Operation.text`: what the store says
  about values, with nesting that is too deep as a fault.
* `Operation.items`: the items that a value is walked over by.
-/

namespace Stepper

/-- How an operation fails: the `fault`, and the `store` as it is left. -/
structure Failure where
  fault : Fault
  store : Store

/-- A calculation on a store that may fail, with a `Failure`. -/
abbrev Operation (α : Type) := StateT Store (Except Failure) α

namespace Operation

/-- Fails with `fault`, and leaves the store as it is. -/
def fail (fault : Fault) : Operation α := fun s => .error ⟨fault, s⟩

/-- The result `r`, which does not depend on the store. -/
def ofResult (r : Except Fault α) : Operation α := fun s =>
  match r with
  | .ok a => .ok (a, s)
  | .error fault => .error ⟨fault, s⟩

/-- Tells `f` of the store. -/
def look (f : Store → α) : Operation α := fun s => .ok (f s, s)

/-- Tells `f` of the store; that values are nested too deep is reported as `fault`. -/
def lookDeep (fault : Fault) (f : Store → Except TooDeep α) : Operation α := fun s =>
  match f s with
  | .ok a => .ok (a, s)
  | .error _ => .error ⟨fault, s⟩

/-- A new list with `items`. -/
def newList (items : Array Value) : Operation Value := fun s => .ok (s.addList items)

/-- A new dict with the entries of `d`. -/
def newDict (d : Dict) : Operation Value := fun s => .ok (s.addDict d)

/-- Changes the items of the list at `place` by `f`. -/
def modifyList (place : Nat) (f : Array Value → Array Value) : Operation Unit := fun s =>
  .ok ((), s.modifyList place f)

/-- Changes the entries of the dict at `place` by `f`. -/
def modifyDict (place : Nat) (f : Dict → Dict) : Operation Unit := fun s =>
  .ok ((), s.modifyDict place f)

/-- Whether `a` and `b` are equal. -/
def equals (a b : Value) : Operation Bool :=
  lookDeep .comparedTooDeep (·.equals a b)

/-- The order of two values; `op` is what asks for it. -/
def compare (op : CompareOp) (a b : Value) : Operation Ordering := do
  match ← lookDeep .comparedTooDeep (·.compare a b) with
  | some order => return order
  | none => fail (.notOrdered op a.kind b.kind)

/-- The text of `v`, as it could stand in a program. -/
def repr (v : Value) : Operation String :=
  lookDeep .shownTooDeep (·.repr v)

/-- The text of `v`, as it is printed. -/
def text (v : Value) : Operation String :=
  lookDeep .shownTooDeep (·.text v)

/-- The most items that are built at once. -/
def itemLimit : Nat := 10000000

/-- Fails if `count` items are more than `itemLimit`. -/
def checkCount (count : Nat) : Operation Unit :=
  if itemLimit < count then fail (.tooManyItems count) else pure ()

/-- The items of `v`: those of a list, the characters of a text, the keys of a dict and the numbers
of a range. -/
def items (v : Value) : Operation (List Value) :=
  match v with
  | .list place => look fun s => (s.list place).toList
  | .str t => return t.toList.map fun c => .str c.toString
  | .dict place => look fun s => (s.dict place).keys
  | .range r => do
    checkCount r.size
    return (List.range r.size).map fun i => .int (r.item i)
  | v => fail (.notIterable v.kind)

/-- Fails if `key` cannot be a key of a dict. -/
def checkKey (key : Value) : Operation Unit :=
  if key.isHashable then pure () else fail (.unhashable key.kind)

/-- The whole number that `v` is; a `bool` is 0 or 1. -/
def integer (v : Value) : Operation Int64 :=
  match v.integer? with
  | some n => return n
  | none => fail (.notInteger v.kind)

end Operation

end Stepper
