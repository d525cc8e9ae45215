import Stepper.Item
import Stepper.Method.Call
import Stepper.Proofs.Value.WellFormed

/-!
# Operations keep stores well-formed

* `Operation.Yields`: on a well-formed store, an operation leaves a well-formed store, also if it
  fails, and its result has a given property.
* One lemma for each operation that programs use: `yields_getItem`, `keeps_setItem`,
  `ArithOp.yields_apply`, `Builtin.yields_call`, `Method.yields_call` and so on. Values come out
  well-formed if they have gone in so.
-/

namespace Stepper

namespace Operation

variable {P : Function → Prop} {Q : α → Prop} {R : β → Prop}

/-- On well-formed stores: what `op` leaves is well-formed, also if it fails, and its result has the
property `Q`. -/
def Yields (P : Function → Prop) (Q : α → Prop) (op : Operation α) : Prop :=
  ∀ s, s.WellFormed P →
    match op s with
    | .ok (a, s') => s'.WellFormed P ∧ Q a
    | .error failure => failure.store.WellFormed P

/-- What `op` leaves is well-formed. Its result cannot be anything else. -/
abbrev Keeps (P : Function → Prop) (op : Operation α) : Prop :=
  Yields P (fun _ => True) op

/-! ## Steps -/

theorem Yields.bind {x : Operation α} {f : α → Operation β} (hx : Yields P Q x)
    (hf : ∀ a, Q a → Yields P R (f a)) : Yields P R (x >>= f) := by
  intro s hs
  have hfirst := hx s hs
  change match Except.bind (x s) fun r => f r.1 r.2 with
    | .ok (b, s'') => s''.WellFormed P ∧ R b
    | .error failure => failure.store.WellFormed P
  cases hrun : x s with
  | error failure =>
    rw [hrun] at hfirst
    exact hfirst
  | ok r =>
    rw [hrun] at hfirst
    exact hf r.1 hfirst.2 r.2 hfirst.1

theorem yields_pure {a : α} (h : Q a) : Yields P Q (pure a : Operation α) :=
  fun _ hs => ⟨hs, h⟩

theorem yields_fail (fault : Fault) : Yields P Q (fail fault : Operation α) :=
  fun _ hs => hs

/-- Nothing comes after a failure, so `f` does not matter. -/
theorem yields_fail_bind (fault : Fault) {f : α → Operation β} :
    Yields P R (fail fault >>= f) := by
  have hnothing : Yields P (fun _ => False) (fail fault : Operation α) := yields_fail fault
  exact hnothing.bind fun _ h => h.elim

theorem yields_ofResult {r : Except Fault α} (h : ∀ a, r = .ok a → Q a) :
    Yields P Q (ofResult r) := by
  cases r with
  | error fault => exact yields_fail fault
  | ok a => exact yields_pure (h a rfl)

theorem yields_ite {c : Prop} [Decidable c] {x y : Operation α} (hx : c → Yields P Q x)
    (hy : ¬ c → Yields P Q y) : Yields P Q (if c then x else y) := by
  split
  · exact hx ‹_›
  · exact hy ‹_›

theorem yields_look {f : Store → α} (h : ∀ s, s.WellFormed P → Q (f s)) :
    Yields P Q (look f) :=
  fun s hs => ⟨hs, h s hs⟩

theorem keeps_lookDeep (fault : Fault) (f : Store → Except TooDeep α) :
    Keeps P (lookDeep fault f) := by
  intro s hs
  unfold lookDeep
  cases f s with
  | ok a => exact ⟨hs, trivial⟩
  | error _ => exact hs

theorem yields_newList {items : Array Value} (h : ∀ v ∈ items, v.WellFormed P) :
    Yields P (·.WellFormed P) (newList items) :=
  fun _ hs => ⟨hs.addList h, trivial⟩

theorem yields_newDict {d : Dict} (h : d.WellFormed P) :
    Yields P (·.WellFormed P) (newDict d) :=
  fun _ hs => ⟨hs.addDict h, trivial⟩

theorem keeps_modifyList (place : Nat) {f : Array Value → Array Value}
    (hf : ∀ items, (∀ v ∈ items, v.WellFormed P) → ∀ v ∈ f items, v.WellFormed P) :
    Keeps P (modifyList place f) :=
  fun _ hs => ⟨hs.modifyList place hf, trivial⟩

theorem keeps_modifyDict (place : Nat) {f : Dict → Dict}
    (hf : ∀ d, d.WellFormed P → (f d).WellFormed P) :
    Keeps P (modifyDict place f) :=
  fun _ hs => ⟨hs.modifyDict place hf, trivial⟩

theorem yields_listAt (place : Nat) :
    Yields P (fun items => ∀ v ∈ items, v.WellFormed P) (look (·.list place)) :=
  yields_look fun _ hs => hs.list place

theorem keeps_mapM {f : α → Operation β} (hf : ∀ a, Keeps P (f a))
    (as : List α) : Keeps P (as.mapM f) := by
  induction as with
  | nil => exact yields_pure trivial
  | cons a as ih =>
    rw [List.mapM_cons]
    exact (hf a).bind fun _ _ => ih.bind fun _ _ => yields_pure trivial

theorem wellFormed_getD {items : Array Value} (h : ∀ v ∈ items, v.WellFormed P) (i : Nat) :
    (items.getD i .none).WellFormed P := by
  by_cases hi : i < items.size
  · rw [Array.getD, dif_pos hi]
    exact h _ (Array.getElem_mem hi)
  · rw [Array.getD, dif_neg hi]
    trivial

/-! ## Checks -/

theorem keeps_equals (a b : Value) : Keeps P (equals a b) :=
  keeps_lookDeep _ _

theorem keeps_compare (op : CompareOp) (a b : Value) :
    Keeps P (compare op a b) := by
  refine (keeps_lookDeep _ _).bind fun order _ => ?_
  cases order with
  | some order => exact yields_pure trivial
  | none => exact yields_fail _

theorem keeps_checkCount (count : Nat) : Keeps P (checkCount count) := by
  unfold checkCount
  split
  · exact yields_fail _
  · exact yields_pure trivial

/-- A `key` that passes `checkKey` is hashable. -/
theorem yields_checkKey (key : Value) : Yields P (fun _ => key.isHashable) (checkKey key) := by
  unfold checkKey
  split
  · rename_i h
    exact yields_pure h
  · exact yields_fail _

theorem keeps_integer (v : Value) : Keeps P (integer v) := by
  unfold integer
  split
  · exact yields_pure trivial
  · exact yields_fail _

/-- What is walked over, the items of `v`, is well-formed. -/
theorem yields_items {v : Value} :
    Yields P (fun vs => ∀ w ∈ vs, w.WellFormed P) (items v) := by
  cases v with
  | list place =>
    exact yields_look fun s hs w hw => hs.list place w (Array.mem_toList_iff.1 hw)
  | str t =>
    refine yields_pure fun w hw => ?_
    obtain ⟨c, -, rfl⟩ := List.mem_map.1 hw
    trivial
  | dict place => exact yields_look fun s hs => (hs.dict place).keys
  | range r =>
    refine (keeps_checkCount _).bind fun _ _ => yields_pure fun w hw => ?_
    obtain ⟨i, -, rfl⟩ := List.mem_map.1 hw
    trivial
  | _ => exact yields_fail _

/-! ## Items and members -/

theorem keeps_position (what : Indexed) (key : Value) (size : Nat) :
    Keeps P (position what key size) := by
  unfold position
  split
  · exact yields_fail _
  · exact yields_ite (fun _ => yields_fail _) fun _ => yields_pure trivial

theorem yields_getItem (container key : Value) :
    Yields P (·.WellFormed P) (getItem container key) := by
  cases container with
  | list place =>
    exact (yields_listAt place).bind fun items hitems => (keeps_position _ _ _).bind fun i _ =>
      yields_pure (wellFormed_getD hitems i)
  | str t => exact (keeps_position _ _ _).bind fun i _ => yields_pure trivial
  | range r => exact (keeps_position _ _ _).bind fun i _ => yields_pure trivial
  | dict place =>
    have hfound : Yields P (fun found => ∀ v ∈ found, v.WellFormed P)
        (look fun s => (s.dict place).get? key) :=
      yields_look fun s hs v hv => (hs.dict place).get? hv
    refine (yields_checkKey key).bind fun _ _ => hfound.bind fun found h => ?_
    cases found with
    | some v => exact yields_pure (h v rfl)
    | none =>
      have htext : Keeps P (look fun s => (s.repr key).toOption.getD "") :=
        yields_look fun _ _ => trivial
      exact htext.bind fun _ _ => yields_fail _
  | _ => exact yields_fail _

theorem keeps_setItem {container key value : Value} (hkey : key.WellFormed P)
    (hvalue : value.WellFormed P) :
    Keeps P (setItem container key value) := by
  cases container with
  | list place =>
    have hsize : Keeps P (look fun s => (s.list place).size) :=
      yields_look fun _ _ => trivial
    refine hsize.bind fun n _ => (keeps_position _ _ _).bind fun i _ =>
      keeps_modifyList place fun items hitems v hv => ?_
    rcases Array.mem_or_eq_of_mem_setIfInBounds hv with hv | rfl
    · exact hitems v hv
    · exact hvalue
  | dict place =>
    exact (yields_checkKey key).bind fun _ hhashable =>
      keeps_modifyDict place fun d hd => hd.insert hhashable hkey hvalue
  | _ => exact yields_fail _

/-- A member of `receiver` is a method that the value has. -/
theorem yields_getMember {receiver : Value} (h : receiver.WellFormed P) (name : String) :
    Yields P (·.WellFormed P) (getMember receiver name) := by
  unfold getMember
  split
  · rename_i m hm
    have howner := List.find?_some hm
    simp only [Bool.and_eq_true, decide_eq_true_eq] at howner
    exact yields_pure ⟨howner.1.symm, h⟩
  · exact yields_fail _

/-! ## Operators -/

theorem yields_ofNumber (r : Except Fault Number) :
    Yields P (·.WellFormed P) (ofResult (r.map Value.ofNumber)) := by
  refine yields_ofResult fun v hv => ?_
  cases r with
  | error fault => cases hv
  | ok n =>
    cases hv
    exact Value.wellFormed_ofNumber n

theorem yields_combine (op : ArithOp) (left right : Value) :
    Yields P (·.WellFormed P) (combine op left right) := by
  unfold combine
  split
  · exact yields_ofNumber _
  · exact yields_fail _

theorem yields_repeatText (t : String) (times : Nat) :
    Yields P (·.WellFormed P) (repeatText t times) :=
  (keeps_checkCount _).bind fun _ _ => yields_pure trivial

/-- Repetition of `items` brings nothing new. -/
theorem mem_of_mem_repeat {items : Array α} {n : Nat} {v : α}
    (h : v ∈ Nat.repeat (· ++ items) n #[]) : v ∈ items := by
  induction n with
  | zero => simp [Nat.repeat] at h
  | succ n ih =>
    simp only [Nat.repeat, Array.mem_append] at h
    exact h.elim ih id

theorem yields_repeatList (place times : Nat) :
    Yields P (·.WellFormed P) (repeatList place times) := by
  refine (yields_listAt place).bind fun items hitems => (keeps_checkCount _).bind fun _ _ =>
    yields_newList fun v hv => ?_
  split at hv
  · simp at hv
  · exact hitems v (mem_of_mem_repeat hv)

theorem yields_add (left right : Value) : Yields P (·.WellFormed P) (Operation.add left right) := by
  unfold Operation.add
  split
  · exact yields_pure trivial
  · refine (yields_listAt _).bind fun items hitems => (yields_listAt _).bind fun more hmore =>
      yields_newList fun v hv => ?_
    exact (Array.mem_append.1 hv).elim (hitems v) (hmore v)
  · exact yields_combine _ _ _

theorem yields_multiply (left right : Value) :
    Yields P (·.WellFormed P) (multiply left right) := by
  unfold multiply
  split
  · exact yields_repeatText _ _
  · exact yields_repeatList _ _
  · exact yields_repeatText _ _
  · exact yields_repeatList _ _
  · exact yields_combine _ _ _

theorem keeps_hasEqual (needle : Value) (vs : List Value) : Keeps P (hasEqual needle vs) := by
  induction vs with
  | nil => exact yields_pure trivial
  | cons v vs ih =>
    refine (keeps_equals _ _).bind fun equal _ => ?_
    split
    · exact yields_pure trivial
    · exact ih

theorem keeps_member (needle container : Value) : Keeps P (member needle container) := by
  cases container with
  | str whole =>
    cases needle with
    | str part => exact yields_pure trivial
    | _ => exact yields_fail _
  | list place =>
    have hitems : Keeps P (look fun s => (s.list place).toList) := yields_look fun _ _ => trivial
    exact hitems.bind fun items _ => keeps_hasEqual _ _
  | dict place => exact yields_look fun _ _ => trivial
  | range r => exact yields_pure trivial
  | _ => exact yields_fail _

/-! ## Builtin functions -/

theorem keeps_checkArguments (function : String) (least most : Nat) (args : List Value) :
    Keeps P (checkArguments function least most args) := by
  unfold checkArguments
  split
  · exact yields_pure trivial
  · exact yields_fail _

section Arguments

variable {args : List Value}

theorem yields_oneArgument (h : ∀ v ∈ args, v.WellFormed P) (function : String) :
    Yields P (·.WellFormed P) (oneArgument function args) := by
  refine (keeps_checkArguments _ _ _ _).bind fun _ _ => yields_pure ?_
  cases args with
  | nil => trivial
  | cons v rest => exact h v List.mem_cons_self

theorem yields_optionalArgument (h : ∀ v ∈ args, v.WellFormed P) (function : String) :
    Yields P (fun v? => ∀ v ∈ v?, v.WellFormed P) (optionalArgument function args) :=
  (keeps_checkArguments _ _ _ _).bind fun _ _ =>
    yields_pure fun v hv => h v (List.mem_of_mem_head? hv)

theorem keeps_printLayout (separator ending : String) (keywords : Keywords) :
    Keeps P (printLayout separator ending keywords) := by
  induction keywords generalizing separator ending with
  | nil => exact yields_pure trivial
  | cons keyword rest ih =>
    obtain ⟨name, value⟩ := keyword
    unfold printLayout
    split
    · cases value with
      | none => exact ih _ _
      | str t =>
        dsimp only
        split
        · exact ih _ _
        · exact ih _ _
      | _ => exact yields_fail _
    · exact yields_fail _

theorem keeps_printed (args : List Value) (keywords : Keywords) :
    Keeps P (printed args keywords) :=
  (keeps_printLayout _ _ _).bind fun _ _ =>
    (keeps_mapM (fun _ => keeps_lookDeep _ _) args).bind fun _ _ => yields_pure trivial

theorem yields_length (v : Value) : Yields P (·.WellFormed P) (length v) := by
  have hsize : Keeps P (look (·.size? v)) := yields_look fun _ _ => trivial
  refine hsize.bind fun n _ => ?_
  cases n with
  | some n => exact yields_pure trivial
  | none => exact yields_fail _

/-- A range that stands still, with the step `0`, is refused. -/
theorem yields_makeRange (args : List Value) : Yields P (·.WellFormed P) (makeRange args) := by
  refine (keeps_checkArguments _ _ _ _).bind fun _ _ =>
    (keeps_mapM keeps_integer args).bind fun ns _ => ?_
  exact yields_ite (fun _ => yields_fail _) fun hstep => yields_pure hstep

theorem yields_absolute (v : Value) : Yields P (·.WellFormed P) (absolute v) := by
  cases v with
  | int n =>
    rw [absolute]
    exact yields_ofNumber _
  | bool b => exact yields_pure trivial
  | float x => exact yields_pure trivial
  | _ => exact yields_fail _

theorem yields_bestFrom (op : CompareOp) (wanted : Ordering) {best : Value}
    (hbest : best.WellFormed P) {vs : List Value} (h : ∀ v ∈ vs, v.WellFormed P) :
    Yields P (·.WellFormed P) (bestFrom op wanted best vs) := by
  induction vs generalizing best with
  | nil => exact yields_pure hbest
  | cons v vs ih =>
    obtain ⟨hv, hvs⟩ := List.forall_mem_cons.1 h
    refine (keeps_compare _ _ _).bind fun order _ => ih ?_ hvs
    split
    · exact hv
    · exact hbest

theorem yields_extreme (h : ∀ v ∈ args, v.WellFormed P) (function : Builtin) (op : CompareOp)
    (wanted : Ordering) : Yields P (·.WellFormed P) (extreme function op wanted args) := by
  unfold extreme
  split
  · exact yields_fail_bind _
  all_goals
    refine Yields.bind (Q := fun vs => ∀ v ∈ vs, v.WellFormed P) ?_ fun vs hvs => ?_
    rotate_left
    · cases vs with
      | nil => exact yields_fail _
      | cons v vs =>
        obtain ⟨hv, hvs⟩ := List.forall_mem_cons.1 hvs
        exact yields_bestFrom op wanted hv hvs
  · exact yields_items
  · exact yields_pure h

theorem yields_sumFrom {total : Value} (htotal : total.WellFormed P) (vs : List Value) :
    Yields P (·.WellFormed P) (sumFrom total vs) := by
  induction vs generalizing total with
  | nil => exact yields_pure htotal
  | cons v vs ih => exact (yields_add _ _).bind fun _ htotal => ih htotal

theorem wellFormed_getD_getElem? (h : ∀ v ∈ args, v.WellFormed P) (i : Nat) {d : Value}
    (hd : d.WellFormed P) : ((args[i]?).getD d).WellFormed P := by
  cases hi : args[i]? with
  | none => exact hd
  | some v => exact h v (List.mem_of_getElem? hi)

theorem yields_sum (h : ∀ v ∈ args, v.WellFormed P) :
    Yields P (·.WellFormed P) (Operation.sum args) := by
  have htotal := wellFormed_getD_getElem? (P := P) h 1 (d := .int 0) trivial
  refine (keeps_checkArguments _ _ _ _).bind fun _ _ => ?_
  dsimp only
  split
  · exact yields_fail_bind _
  · exact yields_items.bind fun vs _ => yields_sumFrom htotal vs

theorem keeps_toWhole (v : Value) : Keeps P (toWhole v) := by
  cases v with
  | int n => exact yields_pure trivial
  | bool b => exact yields_pure trivial
  | float x =>
    unfold toWhole wholeOfFloat
    dsimp only
    split
    · exact yields_fail _
    · split
      · exact yields_fail _
      · exact yields_pure trivial
  | str t =>
    unfold toWhole
    dsimp only
    split
    · exact yields_pure trivial
    · exact yields_fail _
  | _ => exact yields_fail _

theorem keeps_toFloat (v : Value) : Keeps P (toFloat v) := by
  unfold toFloat
  split
  · exact yields_pure trivial
  · split
    · exact yields_pure trivial
    · exact yields_fail _
  · exact yields_fail _

end Arguments

end Operation

open Operation

variable {P : Function → Prop}

theorem ArithOp.yields_apply (op : ArithOp) (left right : Value) :
    Yields P (·.WellFormed P) (op.apply left right) := by
  cases op with
  | add => exact yields_add _ _
  | mul => exact yields_multiply _ _
  | _ => exact yields_combine _ _ _

/-- The list `current` that is extended in its place remains the value. -/
theorem ArithOp.yields_update (op : ArithOp) {current right : Value} :
    Yields P (·.WellFormed P) (op.update current right) := by
  unfold ArithOp.update
  split
  · refine yields_items.bind fun extra hextra => ?_
    refine (keeps_modifyList _ fun items hitems v hv => ?_).bind fun _ _ => yields_pure trivial
    rcases Array.mem_append.1 hv with hv | hv
    · exact hitems v hv
    · exact hextra v (by simpa using hv)
  · exact op.yields_apply _ _

theorem CompareOp.keeps_apply (op : CompareOp) (left right : Value) :
    Keeps P (op.apply left right) := by
  cases op with
  | eq => exact keeps_equals _ _
  | ne => exact (keeps_equals _ _).bind fun _ _ => yields_pure trivial
  | isIn => exact keeps_member _ _
  | notIn => exact (keeps_member _ _).bind fun _ _ => yields_pure trivial
  | same | notSame => exact yields_pure trivial
  | lt | le | gt | ge => exact (keeps_compare _ _ _).bind fun _ _ => yields_pure trivial

theorem UnaryOp.yields_apply (op : UnaryOp) (operand : Value) :
    Yields P (·.WellFormed P) (op.apply operand) := by
  unfold UnaryOp.apply
  split
  · exact yields_look fun _ _ => trivial
  · exact yields_ofNumber _
  · exact yields_pure trivial
  · exact yields_pure trivial
  · exact yields_pure trivial
  · exact yields_pure trivial
  · exact yields_pure trivial
  · exact yields_fail _

namespace Builtin

variable {args : List Value}

theorem yields_value (b : Builtin) (h : ∀ v ∈ args, v.WellFormed P) :
    Yields P (·.WellFormed P) (b.value args) := by
  cases b with
  | print => exact yields_pure trivial
  | len => exact (yields_oneArgument h _).bind fun v _ => yields_length v
  | range => exact yields_makeRange args
  | str =>
    refine (yields_optionalArgument h _).bind fun v? _ => ?_
    cases v? with
    | some v => exact (keeps_lookDeep _ _).bind fun _ _ => yields_pure trivial
    | none => exact yields_pure trivial
  | repr =>
    exact (yields_oneArgument h _).bind fun v _ => (keeps_lookDeep _ _).bind fun _ _ =>
      yields_pure trivial
  | int =>
    refine (yields_optionalArgument h _).bind fun v? _ => ?_
    cases v? with
    | some v => exact (keeps_toWhole v).bind fun _ _ => yields_pure trivial
    | none => exact yields_pure trivial
  | float =>
    refine (yields_optionalArgument h _).bind fun v? _ => ?_
    cases v? with
    | some v => exact (keeps_toFloat v).bind fun _ _ => yields_pure trivial
    | none => exact yields_pure trivial
  | bool =>
    refine (yields_optionalArgument h _).bind fun v? _ => ?_
    cases v? with
    | some v => exact yields_look fun _ _ => trivial
    | none => exact yields_pure trivial
  | abs => exact (yields_oneArgument h _).bind fun v _ => yields_absolute v
  | min => exact yields_extreme h _ _ _
  | max => exact yields_extreme h _ _ _
  | sum => exact yields_sum h
  | type => exact (yields_oneArgument h _).bind fun v _ => yields_pure trivial

theorem yields_call (b : Builtin) (h : ∀ v ∈ args, v.WellFormed P) (keywords : Keywords) :
    Yields P (·.1.WellFormed P) (b.call args keywords) := by
  have hvalue : Yields P (·.1.WellFormed P)
      (if keywords.isEmpty then do return (← b.value args, "")
        else fail (.keywordsNotTaken b.name) : Operation (Value × String)) := by
    split
    · exact (b.yields_value h).bind fun v hv => yields_pure hv
    · exact yields_fail _
  cases b with
  | print => exact (keeps_printed args keywords).bind fun _ _ => yields_pure trivial
  | _ => exact hvalue

end Builtin

/-! ## Methods -/

namespace Operation

variable {args : List Value}

theorem keeps_textArgument (role : String) (v : Value) : Keeps P (textArgument role v) := by
  cases v with
  | str t => exact yields_pure trivial
  | _ => exact yields_fail _

theorem keeps_givenArgument (h : ∀ v ∈ args, v.WellFormed P) (function : String) :
    Keeps P (givenArgument function args) := by
  refine (yields_optionalArgument h _).bind fun v? _ => ?_
  split
  · exact yields_pure trivial
  · exact yields_pure trivial

theorem yields_popItem (place : Nat) (index : Option Value) :
    Yields P (·.WellFormed P) (popItem place index) := by
  refine (yields_listAt place).bind fun items hitems => ?_
  have htake (i : Nat) : Yields P (·.WellFormed P) (do
      modifyList place (·.eraseIdxIfInBounds i)
      return items.getD i .none) := by
    refine (keeps_modifyList place fun items hitems v hv => ?_).bind fun _ _ =>
      yields_pure (wellFormed_getD hitems i)
    rw [← Array.mem_toList_iff, Array.toList_eraseIdxIfInBounds] at hv
    exact hitems v (Array.mem_toList_iff.1 (List.mem_of_mem_eraseIdx hv))
  have hindex (i : Int) : Keeps P (pure i) := yields_pure trivial
  refine yields_ite (fun _ => yields_fail_bind _) fun _ => ?_
  cases index with
  | some v =>
    exact (keeps_integer v).bind fun n _ => (hindex _).bind fun i _ =>
      yields_ite (fun _ => yields_fail_bind _) fun _ => htake _
  | none =>
    exact (hindex _).bind fun i _ => yields_ite (fun _ => yields_fail_bind _) fun _ => htake _

theorem keeps_textItems (index : Nat) (vs : List Value) : Keeps P (textItems index vs) := by
  induction vs generalizing index with
  | nil => exact yields_pure trivial
  | cons v vs ih =>
    cases v with
    | str t => exact (ih _).bind fun _ _ => yields_pure trivial
    | _ => exact yields_fail _

theorem keeps_splitText (t : String) (separator : Option Value) :
    Keeps P (splitText t separator) := by
  cases separator with
  | none => exact yields_pure trivial
  | some v =>
    refine (keeps_textArgument _ v).bind fun separator _ => ?_
    split
    · exact yields_fail _
    · exact yields_pure trivial

theorem yields_callOnList (place : Nat) (m : Method) (h : ∀ v ∈ args, v.WellFormed P) :
    Yields P (·.WellFormed P) (callOnList place m args) := by
  cases m with
  | append =>
    refine (yields_oneArgument h _).bind fun item hitem =>
      (keeps_modifyList place fun items hitems v hv => ?_).bind fun _ _ => yields_pure trivial
    rcases Array.mem_push.1 hv with hv | rfl
    · exact hitems v hv
    · exact hitem
  | pop => exact (yields_optionalArgument h _).bind fun index _ => yields_popItem place index
  | _ => exact yields_fail _

theorem yields_callOnText (t : String) (m : Method) (h : ∀ v ∈ args, v.WellFormed P) :
    Yields P (·.WellFormed P) (callOnText t m args) := by
  cases m with
  | upper => exact (keeps_checkArguments _ _ _ _).bind fun _ _ => yields_pure trivial
  | lower => exact (keeps_checkArguments _ _ _ _).bind fun _ _ => yields_pure trivial
  | strip =>
    refine (keeps_givenArgument h _).bind fun v? _ => ?_
    cases v? with
    | none => exact yields_pure trivial
    | some v => exact (keeps_textArgument _ v).bind fun _ _ => yields_pure trivial
  | join =>
    exact (yields_oneArgument h _).bind fun v _ => yields_items.bind fun vs _ =>
      (keeps_textItems _ vs).bind fun _ _ => yields_pure trivial
  | split =>
    refine (keeps_givenArgument h _).bind fun v? _ => (keeps_splitText t v?).bind fun pieces _ =>
      yields_newList fun v hv => ?_
    simp only [List.mem_toArray, List.mem_map] at hv
    obtain ⟨piece, -, rfl⟩ := hv
    trivial
  | _ => exact yields_fail _

theorem yields_callOnDict (place : Nat) (m : Method) (h : ∀ v ∈ args, v.WellFormed P) :
    Yields P (·.WellFormed P) (callOnDict place m args) := by
  cases m with
  | keys =>
    have hkeys : Yields P (fun vs => ∀ v ∈ vs, v.WellFormed P)
        (look fun s => (s.dict place).keys) := yields_look fun s hs => (hs.dict place).keys
    exact (keeps_checkArguments _ _ _ _).bind fun _ _ => hkeys.bind fun vs hvs =>
      yields_newList fun v hv => hvs v (List.mem_toArray.1 hv)
  | values =>
    have hvalues : Yields P (fun vs => ∀ v ∈ vs, v.WellFormed P)
        (look fun s => (s.dict place).values) := yields_look fun s hs => (hs.dict place).values
    exact (keeps_checkArguments _ _ _ _).bind fun _ _ => hvalues.bind fun vs hvs =>
      yields_newList fun v hv => hvs v (List.mem_toArray.1 hv)
  | get =>
    refine (keeps_checkArguments _ _ _ _).bind fun _ _ => (yields_checkKey _).bind fun _ _ => ?_
    have hfound : Yields P (fun found => ∀ v ∈ found, v.WellFormed P)
        (look fun s => (s.dict place).get? (args.headD .none)) :=
      yields_look fun s hs v hv => (hs.dict place).get? hv
    refine hfound.bind fun found hv => yields_pure ?_
    cases found with
    | some v => exact hv v rfl
    | none => exact wellFormed_getD_getElem? h 1 trivial
  | _ => exact yields_fail _

end Operation

theorem Method.yields_call (receiver : Value) (m : Method) {args : List Value}
    (h : ∀ v ∈ args, v.WellFormed P) (keywords : Keywords) :
    Yields P (·.WellFormed P) (m.call receiver args keywords) := by
  unfold Method.call
  split
  · exact yields_fail _
  · cases receiver with
    | list place => exact yields_callOnList place m h
    | str t => exact yields_callOnText t m h
    | dict place => exact yields_callOnDict place m h
    | _ => exact yields_fail _

end Stepper
