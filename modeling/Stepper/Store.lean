import Stepper.Dict

/-!
# The store of a running program

* `Store`: the lists and the dicts of a program, each at a place of its own. A place keeps its
  container, and containers are only added.
* `Store.list`, `Store.dict`: the contents at a place; a place without container is empty.
* `Store.addList`, `Store.addDict`: a new container, at the next place.
* `Store.modifyList`, `Store.modifyDict`: other contents at a place.
* `Store.size?`, `Store.truth`: how many items a value has, and whether it counts as true.
-/

namespace Stepper

/-- The `lists` and the `dicts` of a program, each at its place. -/
structure Store where
  lists : Array (Array Value)
  dicts : Array Dict

namespace Store

/-- The store without containers. -/
def empty : Store := ⟨#[], #[]⟩

/-- The items of the list at `place`. -/
def list (s : Store) (place : Nat) : Array Value :=
  s.lists.getD place #[]

/-- The dict at `place`. -/
def dict (s : Store) (place : Nat) : Dict :=
  s.dicts.getD place .empty

/-- A new list with `items`, and the store with it. -/
def addList (s : Store) (items : Array Value) : Value × Store :=
  (.list s.lists.size, { s with lists := s.lists.push items })

/-- A new dict with the entries of `d`, and the store with it. -/
def addDict (s : Store) (d : Dict) : Value × Store :=
  (.dict s.dicts.size, { s with dicts := s.dicts.push d })

/-- The store with the items of the list at `place` changed by `f`. -/
def modifyList (s : Store) (place : Nat) (f : Array Value → Array Value) : Store :=
  { s with lists := s.lists.modify place f }

/-- The store with the entries of the dict at `place` changed by `f`. -/
def modifyDict (s : Store) (place : Nat) (f : Dict → Dict) : Store :=
  { s with dicts := s.dicts.modify place f }

/-- How many items a value has in `s`, if it has items. -/
def size? (s : Store) : Value → Option Nat
  | .str text => some text.length
  | .list place => some (s.list place).size
  | .dict place => some (s.dict place).size
  | .range r => some r.size
  | _ => none

/-- Whether a value counts as true in `s`: a number that is not zero, a container or text that is
not empty, and every callable. -/
def truth (s : Store) : Value → Bool
  | .none => false
  | .bool b => b
  | .int n => n != 0
  | .float x => x != 0.0
  | .str text => !text.isEmpty
  | .list place => !(s.list place).isEmpty
  | .dict place => !(s.dict place).isEmpty
  | .range r => 0 < r.size
  | .function _ | .builtin _ | .method _ _ => true

end Store

end Stepper
