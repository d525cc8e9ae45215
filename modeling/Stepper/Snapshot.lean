import Stepper.Machine
import Stepper.Value.Text

/-!
# Snapshots of bindings

* `Snapshot`: names and the texts of their values, in the order of the bindings.
* `Snapshot.capture`: what is shown of bindings at a pause. Names that start with two underscores
  and callable values are left out, and long texts are cut. If one value is nested too deep to be
  shown, nothing is shown at all.
-/

namespace Stepper

/-- Names and the texts of their values. -/
structure Snapshot where
  vars : List (String × String)
  deriving DecidableEq

namespace Snapshot

/-- Nothing shown. -/
def empty : Snapshot := ⟨[]⟩

/-- The text of the value of `name`. -/
def get? (s : Snapshot) (name : String) : Option String :=
  s.vars.lookup name

/-- The `text` cut to `limit` characters, with a mark if something is missing; a `limit` of zero
cuts nothing. -/
def cut (limit : Nat) (text : String) : String :=
  if limit = 0 || text.length ≤ limit then text
  else String.ofList (text.toList.take limit) ++ "..."

/-- Whether a binding of `name` to `value` is shown: not if the name starts with `__`, nor if the
value can be called. -/
def shows (name : String) (value : Value) : Bool :=
  !(['_', '_'].isPrefixOf name.toList) && !value.isCallable

/-- The texts of those of the `bindings` that are shown, cut to `limit`. -/
def textsOf (s : Store) (limit : Nat) (bindings : List (String × Value)) :
    Except TooDeep (List (String × String)) :=
  (bindings.filter fun b => shows b.1 b.2).mapM fun b => do
    return (b.1, cut limit (← s.repr b.2))

/-- What is shown of `bindings`: nothing if one of the values is nested too deep. -/
def capture (s : Store) (limit : Nat) (bindings : List (String × Value)) : Snapshot :=
  match textsOf s limit bindings with
  | .ok vars => ⟨vars⟩
  | .error _ => empty

end Snapshot

end Stepper
