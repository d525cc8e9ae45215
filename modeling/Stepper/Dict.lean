import Stepper.Value

/-!
# Dicts

* `Dict`: entries in the order in which their keys were first inserted.
* `Dict.get?`: the value under a key, which is that of the first entry whose key matches.
* `Dict.insert`: a new value under a key that matches, which stays in its place, or a new entry at
  the end.
-/

namespace Stepper

/-- Values under keys: `entries` are in the order of the keys' first insertion. -/
structure Dict where
  entries : List (Value × Value)
  deriving Inhabited

namespace Dict

/-- The dict without entries. -/
def empty : Dict := ⟨[]⟩

/-- How many entries there are. -/
def size (d : Dict) : Nat :=
  d.entries.length

/-- Whether there is no entry. -/
def isEmpty (d : Dict) : Bool :=
  d.entries.isEmpty

/-- The keys in order. -/
def keys (d : Dict) : List Value :=
  d.entries.map (·.1)

/-- The values in the order of their keys. -/
def values (d : Dict) : List Value :=
  d.entries.map (·.2)

/-- The value under `key`, found by `sameKey`. -/
def get? (d : Dict) (key : Value) : Option Value :=
  (d.entries.find? (·.1.sameKey key)).map (·.2)

/-- Whether `d` has an entry under `key`. -/
def contains (d : Dict) (key : Value) : Bool :=
  (d.get? key).isSome

/-- The entries with `value` under `key`: in the place of the old value, or at the end. -/
def insertInto (key value : Value) : List (Value × Value) → List (Value × Value)
  | [] => [(key, value)]
  | (k, v) :: rest =>
    if k.sameKey key then (k, value) :: rest else (k, v) :: insertInto key value rest

/-- The dict `d` with `value` under `key`. -/
def insert (d : Dict) (key value : Value) : Dict :=
  ⟨insertInto key value d.entries⟩

end Dict

end Stepper
