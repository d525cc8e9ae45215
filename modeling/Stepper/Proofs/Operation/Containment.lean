import Stepper.Expr.Eval

/-!
# What operations change

* `Store.Spares`: a store still has the containers of an earlier one, all of them as they were
  except perhaps one.
* `Operation.Spares`: an operation that succeeds spares all containers but that one, and an
  operation that fails spares them all. One that spares them all in any case only adds containers.
* `Evaluation.Contained`: the same of what a program does with values that it has, together with its
  frames and its output.
* `acts_contained`: this is so for every such act. Only `append`, `pop`, the assignment to an item
  and `+=` change a container, and only `print` prints.
-/

namespace Stepper

/-- The store `s'` has the lists and dicts of `s`, each with what it held. The container that
`changed` is may hold something else. -/
structure Store.Spares (changed : Option Value) (s s' : Store) : Prop where
  lists : ∀ place, changed ≠ some (.list place) → ∀ items, s.lists[place]? = some items →
    s'.lists[place]? = some items
  dicts : ∀ place, changed ≠ some (.dict place) → ∀ d, s.dicts[place]? = some d →
    s'.dicts[place]? = some d
  listCount : s.lists.size ≤ s'.lists.size
  dictCount : s.dicts.size ≤ s'.dicts.size

namespace Store

variable {changed : Option Value} {s s' s'' : Store}

theorem Spares.rfl : s.Spares changed s :=
  ⟨fun _ _ _ h => h, fun _ _ _ h => h, Nat.le_refl _, Nat.le_refl _⟩

theorem Spares.trans (h : s.Spares changed s') (h' : s'.Spares changed s'') :
    s.Spares changed s'' where
  lists place hplace items hitems := h'.lists place hplace items (h.lists place hplace items hitems)
  dicts place hplace d hd := h'.dicts place hplace d (h.dicts place hplace d hd)
  listCount := Nat.le_trans h.listCount h'.listCount
  dictCount := Nat.le_trans h.dictCount h'.dictCount

/-- What spares all containers spares all but `changed`. -/
theorem Spares.but (h : s.Spares none s') : s.Spares changed s' :=
  ⟨fun place _ => h.lists place nofun, fun place _ => h.dicts place nofun, h.listCount, h.dictCount⟩

theorem spares_addList (items : Array Value) : s.Spares changed (s.addList items).2 where
  lists place _ items' h := by
    have hplace := (Array.getElem?_eq_some_iff.1 h).1
    rw [addList, Array.getElem?_push_lt hplace]
    exact (Array.getElem?_eq_getElem hplace).symm.trans h
  dicts _ _ _ h := h
  listCount := by simp [addList]
  dictCount := Nat.le_refl _

theorem spares_modifyList (place : Nat) (f : Array Value → Array Value) :
    s.Spares (some (.list place)) (s.modifyList place f) where
  lists other hother items h := by
    have hne : place ≠ other := fun heq => hother (by rw [heq])
    rw [modifyList, Array.getElem?_modify, if_neg hne, h]
  dicts _ _ _ h := h
  listCount := by simp [modifyList]
  dictCount := Nat.le_refl _

theorem spares_modifyDict (place : Nat) (f : Dict → Dict) :
    s.Spares (some (.dict place)) (s.modifyDict place f) where
  lists _ _ _ h := h
  dicts other hother d h := by
    have hne : place ≠ other := fun heq => hother (by rw [heq])
    rw [modifyDict, Array.getElem?_modify, if_neg hne, h]
  listCount := Nat.le_refl _
  dictCount := by simp [modifyDict]

end Store

/-! ## Operations -/

namespace Operation

variable {changed : Option Value}

/-- The operation spares all containers but `changed` if it succeeds, and all if it fails. -/
def Spares (changed : Option Value) (op : Operation α) : Prop :=
  ∀ s, match op s with
    | .ok (_, s') => s.Spares changed s'
    | .error failure => s.Spares none failure.store

/-- The operation `op` changes no container that is there. -/
abbrev OnlyAdds (op : Operation α) : Prop :=
  Spares none op

/-- Whatever follows as `f`, nothing is changed before it. -/
theorem Spares.bind {x : Operation α} {f : α → Operation β} (hx : OnlyAdds x)
    (hf : ∀ a, Spares changed (f a)) : Spares changed (x >>= f) := by
  intro s
  have hfirst := hx s
  change match Except.bind (x s) fun r => f r.1 r.2 with
    | .ok (_, s'') => s.Spares changed s''
    | .error failure => s.Spares none failure.store
  cases hrun : x s with
  | error failure =>
    rw [hrun] at hfirst
    exact hfirst
  | ok r =>
    rw [hrun] at hfirst
    have hrest := hf r.1 r.2
    dsimp only [Except.bind]
    cases hlast : f r.1 r.2 with
    | error failure =>
      rw [hlast] at hrest
      exact hfirst.trans hrest
    | ok r' =>
      rw [hlast] at hrest
      exact hfirst.but.trans hrest

/-- A change comes last: only a result `f a` follows it. -/
theorem Spares.pure_after {x : Operation α} (hx : Spares changed x) (f : α → β) :
    Spares changed (x >>= fun a => pure (f a)) := by
  intro s
  have hfirst := hx s
  change match Except.bind (x s) fun r => .ok (f r.1, r.2) with
    | .ok (_, s'') => s.Spares changed s''
    | .error failure => s.Spares none failure.store
  cases hrun : x s with
  | error failure =>
    rw [hrun] at hfirst
    exact hfirst
  | ok r =>
    rw [hrun] at hfirst
    exact hfirst

theorem spares_pure (a : α) : Spares changed (pure a : Operation α) :=
  fun _ => .rfl

theorem spares_fail (fault : Fault) : Spares changed (fail fault : Operation α) :=
  fun _ => .rfl

/-- Nothing comes after a failure, so `f` does not matter. -/
theorem spares_fail_bind (fault : Fault) {f : α → Operation β} :
    Spares changed (fail fault >>= f) :=
  fun _ => .rfl

theorem spares_ofResult (r : Except Fault α) : Spares changed (ofResult r) := by
  cases r with
  | ok a => exact spares_pure a
  | error fault => exact spares_fail fault

theorem spares_look (f : Store → α) : Spares changed (look f) :=
  fun _ => .rfl

theorem spares_lookDeep (fault : Fault) (f : Store → Except TooDeep α) :
    Spares changed (lookDeep fault f) := by
  intro s
  unfold lookDeep
  cases f s with
  | ok a => exact .rfl
  | error _ => exact .rfl

theorem spares_newList (items : Array Value) : Spares changed (newList items) :=
  fun _ => Store.spares_addList items

theorem spares_modifyList (place : Nat) (f : Array Value → Array Value) :
    Spares (some (.list place)) (modifyList place f) :=
  fun _ => Store.spares_modifyList place f

theorem spares_modifyDict (place : Nat) (f : Dict → Dict) :
    Spares (some (.dict place)) (modifyDict place f) :=
  fun _ => Store.spares_modifyDict place f

theorem spares_ite {c : Prop} [Decidable c] {x y : Operation α} (hx : Spares changed x)
    (hy : Spares changed y) : Spares changed (if c then x else y) := by
  split
  · exact hx
  · exact hy

theorem onlyAdds_mapM {f : α → Operation β} (hf : ∀ a, OnlyAdds (f a)) (as : List α) :
    OnlyAdds (as.mapM f) := by
  induction as with
  | nil => exact spares_pure []
  | cons a as ih =>
    rw [List.mapM_cons]
    exact (hf a).bind fun _ => ih.bind fun _ => spares_pure _

/-! ### Checks -/

theorem onlyAdds_compare (op : CompareOp) (a b : Value) : OnlyAdds (compare op a b) := by
  refine (spares_lookDeep _ _).bind fun order => ?_
  cases order with
  | some order => exact spares_pure order
  | none => exact spares_fail _

theorem onlyAdds_checkCount (count : Nat) : OnlyAdds (checkCount count) :=
  spares_ite (spares_fail _) (spares_pure ())

theorem onlyAdds_checkKey (key : Value) : OnlyAdds (checkKey key) :=
  spares_ite (spares_pure ()) (spares_fail _)

theorem onlyAdds_integer (v : Value) : OnlyAdds (integer v) := by
  unfold integer
  split
  · exact spares_pure _
  · exact spares_fail _

theorem onlyAdds_items (v : Value) : OnlyAdds (items v) := by
  cases v with
  | list place => exact spares_look _
  | str t => exact spares_pure _
  | dict place => exact spares_look _
  | range r => exact (onlyAdds_checkCount _).bind fun _ => spares_pure _
  | _ => exact spares_fail _

theorem onlyAdds_checkArguments (function : String) (least most : Nat) (args : List Value) :
    OnlyAdds (checkArguments function least most args) :=
  spares_ite (spares_pure ()) (spares_fail _)

theorem onlyAdds_oneArgument (function : String) (args : List Value) :
    OnlyAdds (oneArgument function args) :=
  (onlyAdds_checkArguments _ _ _ _).bind fun _ => spares_pure _

theorem onlyAdds_optionalArgument (function : String) (args : List Value) :
    OnlyAdds (optionalArgument function args) :=
  (onlyAdds_checkArguments _ _ _ _).bind fun _ => spares_pure _

theorem onlyAdds_givenArgument (function : String) (args : List Value) :
    OnlyAdds (givenArgument function args) := by
  refine (onlyAdds_optionalArgument _ _).bind fun v? => ?_
  split
  · exact spares_pure none
  · exact spares_pure _

theorem onlyAdds_textArgument (role : String) (v : Value) : OnlyAdds (textArgument role v) := by
  cases v with
  | str t => exact spares_pure t
  | _ => exact spares_fail _

/-! ### Items -/

theorem onlyAdds_position (what : Indexed) (key : Value) (size : Nat) :
    OnlyAdds (position what key size) := by
  unfold position
  split
  · exact spares_fail _
  · exact spares_ite (spares_fail _) (spares_pure _)

theorem onlyAdds_getItem (container key : Value) : OnlyAdds (getItem container key) := by
  cases container with
  | list place =>
    exact (spares_look _).bind fun items => (onlyAdds_position _ _ _).bind fun i => spares_pure _
  | str t => exact (onlyAdds_position _ _ _).bind fun i => spares_pure _
  | range r => exact (onlyAdds_position _ _ _).bind fun i => spares_pure _
  | dict place =>
    refine (onlyAdds_checkKey key).bind fun _ => (spares_look _).bind fun found => ?_
    cases found with
    | some v => exact spares_pure v
    | none => exact (spares_look _).bind fun shown => spares_fail _
  | _ => exact spares_fail _

/-- An item of `container` is assigned only after all checks of the container and the `key`. -/
theorem spares_setItem (container key value : Value) :
    Spares (some container) (setItem container key value) := by
  cases container with
  | list place =>
    exact (spares_look _).bind fun size => (onlyAdds_position _ _ _).bind fun i =>
      spares_modifyList place _
  | dict place => exact (onlyAdds_checkKey key).bind fun _ => spares_modifyDict place _
  | _ => exact spares_fail _

/-! ### Operators -/

theorem onlyAdds_combine (op : ArithOp) (left right : Value) :
    OnlyAdds (combine op left right) := by
  unfold combine
  split
  · exact spares_ofResult _
  · exact spares_fail _

theorem onlyAdds_repeatText (t : String) (times : Nat) : OnlyAdds (repeatText t times) :=
  (onlyAdds_checkCount _).bind fun _ => spares_pure _

theorem onlyAdds_repeatList (place times : Nat) : OnlyAdds (repeatList place times) :=
  (spares_look _).bind fun _ => (onlyAdds_checkCount _).bind fun _ => spares_newList _

theorem onlyAdds_add (left right : Value) : OnlyAdds (Operation.add left right) := by
  unfold Operation.add
  split
  · exact spares_pure _
  · exact (spares_look _).bind fun _ => (spares_look _).bind fun _ => spares_newList _
  · exact onlyAdds_combine _ _ _

theorem onlyAdds_multiply (left right : Value) : OnlyAdds (multiply left right) := by
  unfold multiply
  split
  · exact onlyAdds_repeatText _ _
  · exact onlyAdds_repeatList _ _
  · exact onlyAdds_repeatText _ _
  · exact onlyAdds_repeatList _ _
  · exact onlyAdds_combine _ _ _

theorem onlyAdds_hasEqual (needle : Value) (vs : List Value) : OnlyAdds (hasEqual needle vs) := by
  induction vs with
  | nil => exact spares_pure false
  | cons v vs ih => exact (spares_lookDeep _ _).bind fun _ => spares_ite (spares_pure true) ih

theorem onlyAdds_member (needle container : Value) : OnlyAdds (member needle container) := by
  cases container with
  | str whole =>
    cases needle with
    | str part => exact spares_pure _
    | _ => exact spares_fail _
  | list place => exact (spares_look _).bind fun _ => onlyAdds_hasEqual _ _
  | dict place => exact spares_look _
  | range r => exact spares_pure _
  | _ => exact spares_fail _

/-! ### Builtin functions -/

theorem onlyAdds_printLayout (separator ending : String) (keywords : Keywords) :
    OnlyAdds (printLayout separator ending keywords) := by
  induction keywords generalizing separator ending with
  | nil => exact spares_pure _
  | cons keyword rest ih =>
    obtain ⟨name, value⟩ := keyword
    refine spares_ite ?_ (spares_fail _)
    cases value with
    | none => exact ih _ _
    | str t => exact spares_ite (ih _ _) (ih _ _)
    | _ => exact spares_fail _

theorem onlyAdds_printed (args : List Value) (keywords : Keywords) :
    OnlyAdds (printed args keywords) :=
  (onlyAdds_printLayout _ _ _).bind fun _ =>
    (onlyAdds_mapM (fun _ => spares_lookDeep _ _) args).bind fun _ => spares_pure _

theorem onlyAdds_length (v : Value) : OnlyAdds (length v) := by
  refine (spares_look _).bind fun n => ?_
  cases n with
  | some n => exact spares_pure _
  | none => exact spares_fail _

theorem onlyAdds_makeRange (args : List Value) : OnlyAdds (makeRange args) := by
  refine (onlyAdds_checkArguments _ _ _ _).bind fun _ =>
    (onlyAdds_mapM onlyAdds_integer args).bind fun ns => ?_
  exact spares_ite (spares_fail _) (spares_pure _)

theorem onlyAdds_absolute (v : Value) : OnlyAdds (absolute v) := by
  cases v with
  | int n =>
    rw [absolute]
    exact spares_ofResult _
  | bool b => exact spares_pure _
  | float x => exact spares_pure _
  | _ => exact spares_fail _

theorem onlyAdds_bestFrom (op : CompareOp) (wanted : Ordering) (best : Value) (vs : List Value) :
    OnlyAdds (bestFrom op wanted best vs) := by
  induction vs generalizing best with
  | nil => exact spares_pure best
  | cons v vs ih => exact (onlyAdds_compare _ _ _).bind fun _ => ih _

theorem onlyAdds_extreme (function : Builtin) (op : CompareOp) (wanted : Ordering)
    (args : List Value) : OnlyAdds (extreme function op wanted args) := by
  unfold extreme
  split
  · exact spares_fail_bind _
  · refine (onlyAdds_items _).bind fun candidates => ?_
    cases candidates with
    | nil => exact spares_fail _
    | cons first rest => exact onlyAdds_bestFrom _ _ _ _
  · refine Spares.bind (spares_pure args) fun candidates => ?_
    cases candidates with
    | nil => exact spares_fail _
    | cons first rest => exact onlyAdds_bestFrom _ _ _ _

/-- Sums of `vs` that are discarded stay behind as lists of their own. -/
theorem onlyAdds_sumFrom (total : Value) (vs : List Value) : OnlyAdds (sumFrom total vs) := by
  induction vs generalizing total with
  | nil => exact spares_pure total
  | cons v vs ih => exact (onlyAdds_add _ _).bind fun _ => ih _

theorem onlyAdds_sum (args : List Value) : OnlyAdds (Operation.sum args) := by
  refine (onlyAdds_checkArguments _ _ _ _).bind fun _ => ?_
  dsimp only
  split
  · exact spares_fail_bind _
  · exact (onlyAdds_items _).bind fun _ => onlyAdds_sumFrom _ _

theorem onlyAdds_toWhole (v : Value) : OnlyAdds (toWhole v) := by
  cases v with
  | int n => exact spares_pure n
  | bool b => exact spares_pure _
  | float x => exact spares_ite (spares_fail _) (spares_ite (spares_fail _) (spares_pure _))
  | str t =>
    unfold toWhole
    dsimp only
    split
    · exact spares_pure _
    · exact spares_fail _
  | _ => exact spares_fail _

theorem onlyAdds_toFloat (v : Value) : OnlyAdds (toFloat v) := by
  unfold toFloat
  split
  · exact spares_pure _
  · split
    · exact spares_pure _
    · exact spares_fail _
  · exact spares_fail _

/-- The value of an optional argument, if it is given, is what `f` goes on with. -/
theorem onlyAdds_optional {function : String} {args : List Value} {f : Option Value → Operation α}
    (hsome : ∀ v, OnlyAdds (f (some v))) (hnone : OnlyAdds (f none)) :
    OnlyAdds (optionalArgument function args >>= f) := by
  refine (onlyAdds_optionalArgument _ _).bind fun v? => ?_
  cases v? with
  | some v => exact hsome v
  | none => exact hnone

end Operation

open Operation

theorem ArithOp.onlyAdds_apply (op : ArithOp) (left right : Value) :
    OnlyAdds (op.apply left right) := by
  cases op with
  | add => exact onlyAdds_add _ _
  | mul => exact onlyAdds_multiply _ _
  | _ => exact onlyAdds_combine _ _ _

/-- The container that `op=` changes: the list that `+=` extends. -/
def ArithOp.changed (op : ArithOp) (current : Value) : Option Value :=
  match op, current with
  | .add, .list place => some (.list place)
  | _, _ => none

/-- The list `current` is extended by items that are there before, even if they are its own. -/
theorem ArithOp.spares_update (op : ArithOp) (current right : Value) :
    Spares (op.changed current) (op.update current right) := by
  cases op with
  | add =>
    cases current with
    -- The items are read before the list is changed, so they may be its own.
    | list place => exact (onlyAdds_items _).bind fun extra => (spares_modifyList _ _).pure_after _
    | _ =>
      simp only [ArithOp.changed, ArithOp.update]
      exact ArithOp.onlyAdds_apply .add _ right
  | _ =>
    simp only [ArithOp.changed, ArithOp.update]
    exact ArithOp.onlyAdds_apply _ current right

theorem CompareOp.onlyAdds_apply (op : CompareOp) (left right : Value) :
    OnlyAdds (op.apply left right) := by
  cases op with
  | eq => exact spares_lookDeep _ _
  | ne => exact (spares_lookDeep _ _).bind fun _ => spares_pure _
  | isIn => exact onlyAdds_member _ _
  | notIn => exact (onlyAdds_member _ _).bind fun _ => spares_pure _
  | same | notSame => exact spares_pure _
  | lt | le | gt | ge => exact (onlyAdds_compare _ _ _).bind fun _ => spares_pure _

theorem UnaryOp.onlyAdds_apply (op : UnaryOp) (operand : Value) : OnlyAdds (op.apply operand) := by
  unfold UnaryOp.apply
  split
  · exact spares_look _
  · exact spares_ofResult _
  · exact spares_pure _
  · exact spares_pure _
  · exact spares_pure _
  · exact spares_pure _
  · exact spares_pure _
  · exact spares_fail _

namespace Builtin

theorem onlyAdds_value (b : Builtin) (args : List Value) : OnlyAdds (b.value args) := by
  cases b with
  | print => exact spares_pure _
  | len => exact (onlyAdds_oneArgument _ _).bind fun v => onlyAdds_length v
  | range => exact onlyAdds_makeRange args
  | str =>
    exact onlyAdds_optional (fun v => (spares_lookDeep _ _).bind fun _ => spares_pure _)
      (spares_pure _)
  | repr =>
    exact (onlyAdds_oneArgument _ _).bind fun v => (spares_lookDeep _ _).bind fun _ => spares_pure _
  | int =>
    exact onlyAdds_optional (fun v => (onlyAdds_toWhole v).bind fun _ => spares_pure _)
      (spares_pure _)
  | float =>
    exact onlyAdds_optional (fun v => (onlyAdds_toFloat v).bind fun _ => spares_pure _)
      (spares_pure _)
  | bool => exact onlyAdds_optional (fun v => spares_look _) (spares_pure _)
  | abs => exact (onlyAdds_oneArgument _ _).bind fun v => onlyAdds_absolute v
  | min | max => exact onlyAdds_extreme _ _ _ _
  | sum => exact onlyAdds_sum args
  | type => exact (onlyAdds_oneArgument _ _).bind fun v => spares_pure _

theorem onlyAdds_call (b : Builtin) (args : List Value) (keywords : Keywords) :
    OnlyAdds (b.call args keywords) := by
  have hvalue : OnlyAdds (if keywords.isEmpty then do return (← b.value args, "")
      else fail (.keywordsNotTaken b.name) : Operation (Value × String)) :=
    spares_ite ((b.onlyAdds_value args).bind fun _ => spares_pure _) (spares_fail _)
  cases b with
  | print => exact (onlyAdds_printed args keywords).bind fun _ => spares_pure _
  | _ => exact hvalue

end Builtin

/-! ### Methods -/

namespace Operation

/-- An item is taken out of the list at `place` only after the `index` has passed all checks. -/
theorem spares_popItem (place : Nat) (index : Option Value) :
    Spares (some (.list place)) (popItem place index) := by
  refine Spares.bind (spares_look _) fun items => ?_
  have htake (i : Int) : Spares (some (.list place)) (do
      let i := if i < 0 then i + items.size else i
      if i < 0 || items.size ≤ i then fail .popOutOfRange
      modifyList place (·.eraseIdxIfInBounds i.toNat)
      return items.getD i.toNat .none) :=
    spares_ite (spares_fail_bind _) ((spares_modifyList place _).pure_after _)
  refine spares_ite (spares_fail_bind _) ?_
  cases index with
  | some v =>
    exact (onlyAdds_integer v).bind fun n => Spares.bind (spares_pure _) htake
  | none => exact Spares.bind (spares_pure _) htake

theorem onlyAdds_textItems (index : Nat) (vs : List Value) : OnlyAdds (textItems index vs) := by
  induction vs generalizing index with
  | nil => exact spares_pure []
  | cons v vs ih =>
    cases v with
    | str t => exact (ih _).bind fun _ => spares_pure _
    | _ => exact spares_fail _

theorem onlyAdds_splitText (t : String) (separator : Option Value) :
    OnlyAdds (splitText t separator) := by
  cases separator with
  | none => exact spares_pure _
  | some v =>
    exact (onlyAdds_textArgument _ v).bind fun _ => spares_ite (spares_fail _) (spares_pure _)

theorem onlyAdds_callOnText (t : String) (m : Method) (args : List Value) :
    OnlyAdds (callOnText t m args) := by
  cases m with
  | upper | lower => exact (onlyAdds_checkArguments _ _ _ _).bind fun _ => spares_pure _
  | strip =>
    refine (onlyAdds_givenArgument _ _).bind fun v? => ?_
    cases v? with
    | none => exact spares_pure _
    | some v => exact (onlyAdds_textArgument _ v).bind fun _ => spares_pure _
  | join =>
    exact (onlyAdds_oneArgument _ _).bind fun v => (onlyAdds_items v).bind fun vs =>
      (onlyAdds_textItems _ vs).bind fun _ => spares_pure _
  | split =>
    exact (onlyAdds_givenArgument _ _).bind fun v? => (onlyAdds_splitText t v?).bind fun pieces =>
      spares_newList _
  | _ => exact spares_fail _

theorem onlyAdds_callOnDict (place : Nat) (m : Method) (args : List Value) :
    OnlyAdds (callOnDict place m args) := by
  cases m with
  | keys | values =>
    exact (onlyAdds_checkArguments _ _ _ _).bind fun _ => (spares_look _).bind fun _ =>
      spares_newList _
  | get =>
    exact (onlyAdds_checkArguments _ _ _ _).bind fun _ => (onlyAdds_checkKey _).bind fun _ =>
      (spares_look _).bind fun _ => spares_pure _
  | _ => exact spares_fail _

end Operation

/-- The container that a call of a method changes: the list that `append` or `pop` belongs to. -/
def Method.changed (receiver : Value) (m : Method) : Option Value :=
  match receiver, m with
  | .list place, .append | .list place, .pop => some (.list place)
  | _, _ => none

theorem Method.spares_call (receiver : Value) (m : Method) (args : List Value)
    (keywords : Keywords) : Spares (m.changed receiver) (m.call receiver args keywords) := by
  refine spares_ite (spares_fail _) ?_
  cases receiver with
  | list place =>
    cases m with
    | append =>
      exact (onlyAdds_oneArgument _ _).bind fun item => (spares_modifyList place _).pure_after _
    | pop => exact (onlyAdds_optionalArgument _ _).bind fun index => spares_popItem place index
    | _ => exact spares_fail _
  | str t => exact onlyAdds_callOnText t m args
  | dict place => exact onlyAdds_callOnDict place m args
  | _ => exact spares_fail _

/-! ## Acts of a program -/

/-- A builtin `b` other than `print` has no text to print. -/
theorem Builtin.text_of_call {b : Builtin} (hprint : b ≠ .print) {args : List Value}
    {keywords : Keywords} {s s' : Store} {v : Value} {text : String}
    (h : b.call args keywords s = .ok ((v, text), s')) : text = "" := by
  have hcall : b.call args keywords =
      if keywords.isEmpty then do return (← b.value args, "")
      else fail (.keywordsNotTaken b.name) := by
    cases b with
    | print => exact absurd rfl hprint
    | _ => rfl
  rw [hcall] at h
  split at h
  · change Except.bind (b.value args s) _ = _ at h
    cases hvalue : b.value args s with
    | error failure => rw [hvalue] at h; cases h
    | ok r => rw [hvalue] at h; cases h; rfl
  · cases h

theorem Output.write_empty (o : Output) : o.write "" = o := by
  simp [write]

namespace Evaluation

/-- The act `x` does not pause, and leaves the frames alone. If it raises, then all lists and dicts
that were there and the output are as they were. If it succeeds, then all those lists and dicts but
`changed` are, and a text may have been appended to both texts of the output if the act `prints`. -/
def Contained (changed : Option Value) (prints : Bool) (x : Evaluation α) : Prop :=
  ∀ m, ∃ r m', x m = .ended (r, m') ∧ m'.stack = m.stack ∧
    match r with
    | .ok _ => m.store.Spares changed m'.store ∧
        (m'.output = m.output ∨ prints ∧ ∃ text, m'.output = m.output.write text)
    | .error i => (∃ e, i = .raised e) ∧ m.store.Spares none m'.store ∧ m'.output = m.output

variable {changed : Option Value} {prints : Bool}

theorem contained_perform {op : Operation α} (h : op.Spares changed) (loc : Location) :
    Contained changed prints (perform op loc) := by
  intro m
  have hspares := h m.store
  unfold perform
  cases hrun : op m.store with
  | ok r =>
    rw [hrun] at hspares
    exact ⟨_, _, rfl, rfl, hspares, .inl rfl⟩
  | error failure =>
    rw [hrun] at hspares
    exact ⟨_, _, rfl, rfl, ⟨_, rfl⟩, hspares, rfl⟩

/-- What a builtin function prints is written once its value is there. -/
theorem contained_builtin (call : Caller) (b : Builtin) (args : List Value) (keywords : Keywords)
    (loc : Location) :
    Contained none (b == .print) (callValue call (.builtin b) args keywords loc) := by
  intro m
  have hspares := b.onlyAdds_call args keywords m.store
  change ∃ r m', Execution.bind (perform (b.call args keywords) loc m) _ = .ended (r, m') ∧ _
  unfold perform
  cases hrun : b.call args keywords m.store with
  | error failure =>
    rw [hrun] at hspares
    exact ⟨_, _, rfl, rfl, ⟨_, rfl⟩, hspares, rfl⟩
  | ok r =>
    obtain ⟨⟨v, text⟩, s⟩ := r
    rw [hrun] at hspares
    refine ⟨_, _, rfl, rfl, hspares, ?_⟩
    by_cases hprint : b = .print
    · exact .inr ⟨by simp [hprint], text, rfl⟩
    · obtain rfl := Builtin.text_of_call hprint hrun
      exact .inl (Output.write_empty m.output)

end Evaluation

open Evaluation in
/-- On every state and for all operands: calls of builtin functions and methods, subscripts,
operators, and `op=` are `Contained`: they leave no trace if they raise, and otherwise change no
container but the one that is theirs to change. That one may be an operand as well. -/
theorem acts_contained (call : Caller) (loc : Location) :
    (∀ b args keywords,
      Contained none (b == .print) (callValue call (.builtin b) args keywords loc)) ∧
    (∀ receiver m args keywords, Contained (m.changed receiver) false
      (callValue call (.method receiver m) args keywords loc)) ∧
    (∀ container key, Contained none false (perform (getItem container key) loc)) ∧
    (∀ container key value, Contained (some container) false
      (perform (setItem container key value) loc)) ∧
    (∀ (op : UnaryOp) operand, Contained none false (perform (op.apply operand) loc)) ∧
    (∀ (op : ArithOp) left right, Contained none false (perform (op.apply left right) loc)) ∧
    (∀ (op : CompareOp) left right, Contained none false (perform (op.apply left right) loc)) ∧
    (∀ (op : ArithOp) current right, Contained (op.changed current) false
      (perform (op.update current right) loc)) ∧
    (∀ operand, Contained none false (truth operand)) := by
  refine ⟨fun b args keywords => contained_builtin call b args keywords loc,
    fun receiver m args keywords => contained_perform (m.spares_call receiver args keywords) loc,
    fun container key => contained_perform (onlyAdds_getItem container key) loc,
    fun container key value => contained_perform (spares_setItem container key value) loc,
    fun op operand => contained_perform (op.onlyAdds_apply operand) loc,
    fun op left right => contained_perform (op.onlyAdds_apply left right) loc,
    fun op left right => contained_perform (op.onlyAdds_apply left right) loc,
    fun op current right => contained_perform (op.spares_update current right) loc,
    fun operand m => ⟨_, m, rfl, rfl, .rfl, .inl rfl⟩⟩

end Stepper
