import Stepper.Store

/-!
# Equality and order of values

* `Store.equals`: lists are equal item by item, dicts if each key of one has an equal value in the
  other, and other values if they match as keys.
* `Store.compare`: the order of numbers, of texts and of lists, which is decided by their first
  items that are not equal. Other values are not comparable.

Both look into containers at most `nestingLimit` deep, so they end on lists that contain
themselves: beyond it the answer is `TooDeep`.
-/

namespace Stepper

/-- Values are nested deeper than is looked at. -/
structure TooDeep where
  deriving DecidableEq

/-- How deep containers are looked into: a value is compared and shown within `nestingLimit + 1`
levels. -/
def nestingLimit : Nat := 100

/-- The text of the failure. -/
def TooDeep.message (_ : TooDeep) : String :=
  "value nesting exceeds " ++ toString nestingLimit ++ " levels"

/-- Whether `p` holds of every pair of items at one position. It is not asked after an answer of
no, and not about items without partner. -/
def everyPair (p : α → α → Except ε Bool) : List α → List α → Except ε Bool
  | a :: as, b :: bs => do
    if ← p a b then everyPair p as bs else return false
  | _, _ => return true

/-- The first pair of items at one position of which `p` does not hold. -/
def firstUnlike (p : α → α → Except ε Bool) : List α → List α → Except ε (Option (α × α))
  | a :: as, b :: bs => do
    if ← p a b then firstUnlike p as bs else return some (a, b)
  | _, _ => return none

/-- Whether `p` holds of the value under each key of the entries and that of `d` under the same
key. -/
def everyEntry (p : Value → Value → Except ε Bool) (d : Dict) :
    List (Value × Value) → Except ε Bool
  | [] => return true
  | (k, v) :: rest =>
    match d.get? k with
    | none => return false
    | some other => do
      if ← p v other then everyEntry p d rest else return false

namespace Store

/-- Whether two values are equal, looking at `levels` levels of them. -/
def equalsWithin (s : Store) : Nat → Value → Value → Except TooDeep Bool
  | 0, _, _ => .error {}
  | levels + 1, a, b =>
    match a, b with
    | .list p, .list q =>
      if p = q then return true
      else if (s.list p).size ≠ (s.list q).size then return false
      else everyPair (s.equalsWithin levels) (s.list p).toList (s.list q).toList
    | .dict p, .dict q =>
      if p = q then return true
      else if (s.dict p).size ≠ (s.dict q).size then return false
      else everyEntry (s.equalsWithin levels) (s.dict q) (s.dict p).entries
    | _, _ => return a.sameKey b

/-- Whether `a` and `b` are equal in `s`. -/
def equals (s : Store) (a b : Value) : Except TooDeep Bool :=
  s.equalsWithin (nestingLimit + 1) a b

/-- The order of two values, if they have one, looking at `levels` levels of them. -/
def compareWithin (s : Store) : Nat → Value → Value → Except TooDeep (Option Ordering)
  | 0, _, _ => .error {}
  | levels + 1, a, b =>
    match a.number?, b.number? with
    | some m, some n => return m.order? n
    | _, _ =>
      match a, b with
      | .str t, .str u => return some (compareOfLessAndEq t u)
      | .list p, .list q => do
        let xs := s.list p
        let ys := s.list q
        match ← firstUnlike (s.equalsWithin levels) xs.toList ys.toList with
        | some (x, y) => s.compareWithin levels x y
        | none => return some (compareOfLessAndEq xs.size ys.size)
      | _, _ => return none

/-- The order of `a` and `b` in `s`, if they have one. -/
def compare (s : Store) (a b : Value) : Except TooDeep (Option Ordering) :=
  s.compareWithin (nestingLimit + 1) a b

end Store

end Stepper
