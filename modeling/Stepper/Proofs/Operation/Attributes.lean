import Stepper.Method.Call

/-!
# Methods of values that have them are found

* `Operation.NoAttributeError`: an operation whose faults are all of other kinds. It is shown along
  the steps of the operation.
* `Method.noAttributeError_call`: the call of a method is such an operation if its receiver has the
  method.
-/

namespace Stepper

namespace Operation

variable {args : List Value}

/-- No fault of `op` is that a value lacks a member. -/
def NoAttributeError (op : Operation α) : Prop :=
  ∀ s failure, op s = .error failure → failure.fault.kind ≠ .attributeError

theorem NoAttributeError.bind {x : Operation α} {f : α → Operation β} (hx : NoAttributeError x)
    (hf : ∀ a, NoAttributeError (f a)) : NoAttributeError (x >>= f) := by
  intro s failure h
  change Except.bind (x s) _ = _ at h
  cases hfirst : x s with
  | error failure' =>
    rw [hfirst] at h
    cases h
    exact hx s failure hfirst
  | ok r =>
    rw [hfirst] at h
    exact hf r.1 r.2 failure h

/-- An operation `x` that never fails has no faults of any kind. -/
theorem noAttributeError_of_ok {x : Operation α} (h : ∀ s, ∃ r, x s = .ok r) :
    NoAttributeError x := by
  intro s failure hfailure
  obtain ⟨r, hr⟩ := h s
  rw [hr] at hfailure
  cases hfailure

theorem noAttributeError_pure (a : α) : NoAttributeError (pure a : Operation α) :=
  noAttributeError_of_ok fun _ => ⟨_, rfl⟩

theorem noAttributeError_look (f : Store → α) : NoAttributeError (look f) :=
  noAttributeError_of_ok fun _ => ⟨_, rfl⟩

theorem noAttributeError_newList (items : Array Value) : NoAttributeError (newList items) :=
  noAttributeError_of_ok fun _ => ⟨_, rfl⟩

theorem noAttributeError_modifyList (place : Nat) (f : Array Value → Array Value) :
    NoAttributeError (modifyList place f) :=
  noAttributeError_of_ok fun _ => ⟨_, rfl⟩

theorem noAttributeError_fail {fault : Fault} (h : fault.kind ≠ .attributeError) :
    NoAttributeError (fail fault : Operation α) := by
  rintro s _ ⟨⟩
  exact h

/-- Nothing comes after a failure, so only `fault` counts. -/
theorem noAttributeError_fail_bind {fault : Fault} (h : fault.kind ≠ .attributeError)
    {f : α → Operation β} : NoAttributeError (fail fault >>= f) := by
  rintro s _ ⟨⟩
  exact h

theorem noAttributeError_ite {c : Prop} [Decidable c] {x y : Operation α} (hx : NoAttributeError x)
    (hy : NoAttributeError y) : NoAttributeError (if c then x else y) := by
  split
  · exact hx
  · exact hy

theorem noAttributeError_checkArguments (function : String) (least most : Nat) :
    NoAttributeError (checkArguments function least most args) :=
  noAttributeError_ite (noAttributeError_pure ()) (noAttributeError_fail nofun)

theorem noAttributeError_oneArgument (function : String) :
    NoAttributeError (oneArgument function args) :=
  (noAttributeError_checkArguments _ _ _).bind fun _ => noAttributeError_pure _

theorem noAttributeError_optionalArgument (function : String) :
    NoAttributeError (optionalArgument function args) :=
  (noAttributeError_checkArguments _ _ _).bind fun _ => noAttributeError_pure _

theorem noAttributeError_givenArgument (function : String) :
    NoAttributeError (givenArgument function args) := by
  refine (noAttributeError_optionalArgument _).bind fun v? => ?_
  split <;> exact noAttributeError_pure _

theorem noAttributeError_textArgument (role : String) (v : Value) :
    NoAttributeError (textArgument role v) := by
  unfold textArgument
  split
  · exact noAttributeError_pure _
  · exact noAttributeError_fail nofun

theorem noAttributeError_integer (v : Value) : NoAttributeError (integer v) := by
  unfold integer
  split
  · exact noAttributeError_pure _
  · exact noAttributeError_fail nofun

theorem noAttributeError_checkKey (key : Value) : NoAttributeError (checkKey key) :=
  noAttributeError_ite (noAttributeError_pure ()) (noAttributeError_fail nofun)

theorem noAttributeError_checkCount (count : Nat) : NoAttributeError (checkCount count) :=
  noAttributeError_ite (noAttributeError_fail nofun) (noAttributeError_pure ())

theorem noAttributeError_items (v : Value) : NoAttributeError (items v) := by
  unfold items
  split
  · exact noAttributeError_look _
  · exact noAttributeError_pure _
  · exact noAttributeError_look _
  · exact (noAttributeError_checkCount _).bind fun _ => noAttributeError_pure _
  · exact noAttributeError_fail nofun

theorem noAttributeError_textItems (index : Nat) (vs : List Value) :
    NoAttributeError (textItems index vs) := by
  induction vs generalizing index with
  | nil => exact noAttributeError_pure _
  | cons v rest ih =>
    cases v with
    | str t => exact (ih (index + 1)).bind fun _ => noAttributeError_pure _
    | _ => exact noAttributeError_fail nofun

theorem noAttributeError_splitText (t : String) (separator : Option Value) :
    NoAttributeError (splitText t separator) := by
  cases separator with
  | none => exact noAttributeError_pure _
  | some v =>
    exact (noAttributeError_textArgument _ v).bind fun separator =>
      noAttributeError_ite (noAttributeError_fail nofun) (noAttributeError_pure _)

theorem noAttributeError_popItem (place : Nat) (index : Option Value) :
    NoAttributeError (popItem place index) := by
  have htake (items : Array Value) (i : Nat) : NoAttributeError (do
      modifyList place (·.eraseIdxIfInBounds i)
      return items.getD i .none) :=
    (noAttributeError_modifyList place _).bind fun _ => noAttributeError_pure _
  refine (noAttributeError_look _).bind fun items => ?_
  refine noAttributeError_ite (noAttributeError_fail_bind (by decide)) ?_
  cases index with
  | some v =>
    exact (noAttributeError_integer v).bind fun n => (noAttributeError_pure _).bind fun i =>
      noAttributeError_ite (noAttributeError_fail_bind (by decide)) (htake items _)
  | none =>
    exact (noAttributeError_pure _).bind fun i =>
      noAttributeError_ite (noAttributeError_fail_bind (by decide)) (htake items _)

theorem noAttributeError_callOnList (place : Nat) {m : Method} (h : m.owner = .list) :
    NoAttributeError (callOnList place m args) := by
  cases m with
  | append =>
    exact (noAttributeError_oneArgument _).bind fun item =>
      (noAttributeError_modifyList _ _).bind fun _ => noAttributeError_pure _
  | pop =>
    exact (noAttributeError_optionalArgument _).bind fun index => noAttributeError_popItem _ _
  | _ => cases h

theorem noAttributeError_callOnText (t : String) {m : Method} (h : m.owner = .str) :
    NoAttributeError (callOnText t m args) := by
  cases m with
  | upper | lower =>
    exact (noAttributeError_checkArguments _ _ _).bind fun _ => noAttributeError_pure _
  | strip =>
    refine (noAttributeError_givenArgument _).bind fun v? => ?_
    cases v? with
    | none => exact noAttributeError_pure _
    | some v => exact (noAttributeError_textArgument _ v).bind fun _ => noAttributeError_pure _
  | join =>
    exact (noAttributeError_oneArgument _).bind fun v => (noAttributeError_items v).bind fun vs =>
      (noAttributeError_textItems 0 vs).bind fun _ => noAttributeError_pure _
  | split =>
    exact (noAttributeError_givenArgument _).bind fun v? =>
      (noAttributeError_splitText t v?).bind fun _ => noAttributeError_newList _
  | _ => cases h

theorem noAttributeError_callOnDict (place : Nat) {m : Method} (h : m.owner = .dict) :
    NoAttributeError (callOnDict place m args) := by
  cases m with
  | keys | values =>
    exact (noAttributeError_checkArguments _ _ _).bind fun _ => (noAttributeError_look _).bind
      fun _ => noAttributeError_newList _
  | get =>
    exact (noAttributeError_checkArguments _ _ _).bind fun _ => (noAttributeError_checkKey _).bind
      fun _ => (noAttributeError_look _).bind fun _ => noAttributeError_pure _
  | _ => cases h

end Operation

open Operation

/-- A method `m` whose `receiver` has it is found. -/
theorem Method.noAttributeError_call {receiver : Value} {m : Method} (h : receiver.kind = m.owner)
    (args : List Value) (keywords : Keywords) :
    NoAttributeError (m.call receiver args keywords) := by
  unfold Method.call
  split
  · exact noAttributeError_fail nofun
  · cases receiver with
    | list place => exact noAttributeError_callOnList place h.symm
    | str t => exact noAttributeError_callOnText t h.symm
    | dict place => exact noAttributeError_callOnDict place h.symm
    | _ => cases m <;> cases h

end Stepper
