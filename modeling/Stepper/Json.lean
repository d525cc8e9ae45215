import Stepper.Number.Dyadic

/-!
# JSON values

* `Json`: a value. A number is kept as it is written, and an object keeps its entries in order, also
  those with one key.
* `Json.Plain`: a value with natural numbers of 64 bits alone, nested at most so deep.
-/

namespace Stepper

/-- A JSON value. -/
inductive Json where
  | null
  | bool (b : Bool)
  /-- A number, as it is written. -/
  | number (text : String)
  | str (s : String)
  | list (items : List Json)
  | object (entries : List (String × Json))

namespace Json

/-- The number `n`, in decimal digits. -/
def natural (n : Nat) : Json :=
  number (String.ofList (Nat.toDigits 10 n))

/-- How deep lists and objects are nested. -/
def depthLimit : Nat := 127

/-- A value whose numbers are natural numbers of 64 bits, nested at most `depth` deep. -/
inductive Plain : Nat → Json → Prop
  | null {depth : Nat} : Plain depth .null
  | bool {depth : Nat} (b : Bool) : Plain depth (.bool b)
  | natural {depth n : Nat} : n < 2 ^ 64 → Plain depth (.natural n)
  | str {depth : Nat} (s : String) : Plain depth (.str s)
  | list {depth : Nat} {items : List Json} :
      (∀ item ∈ items, Plain depth item) → Plain (depth + 1) (.list items)
  | object {depth : Nat} {entries : List (String × Json)} :
      (∀ entry ∈ entries, Plain depth entry.2) → Plain (depth + 1) (.object entries)

end Json

end Stepper
