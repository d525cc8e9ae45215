/-!
# Sets of characters

* `CodeSet`: a set of code points, written as the increasing list of the points at which
  membership changes. The first listed point is the first member.
* `CodeSet.contains`: a character is a member if an odd number of changes lie at or before it.
-/

namespace Stepper

/-- A set of code points by the points where membership changes, `changes`, in increasing order. -/
structure CodeSet where
  /-- The first point inside, the first point outside after it, and so on. -/
  changes : List Nat

namespace CodeSet

/-- Membership of `point`, given whether the points before the first change are members. -/
def containsFrom (point : Nat) : Bool → List Nat → Bool
  | inside, [] => inside
  | inside, change :: rest => if point < change then inside else containsFrom point (!inside) rest

/-- Whether `c` is in `set`. -/
def contains (set : CodeSet) (c : Char) : Bool :=
  containsFrom c.toNat false set.changes

end CodeSet

end Stepper
