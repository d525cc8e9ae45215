import Stepper.Proofs.Execution.Stack
import Stepper.Proofs.Execution.Watched
import Stepper.Proofs.Operation.WellFormed
import Stepper.Proofs.Stmt.Placement

/-!
# Programs keep their state well-formed

* `Machine.WellFormed`: all values of a state are well-formed, in the store and in the frames.
* `Machine.Invariant`: what is kept by all that is done to a state. Well-formedness is one
  (`Machine.invariant_wellFormed`), and others say more.
* `Watch.Quiet`: a watch that does nothing where all is well-formed.
* `Evaluation.Agree`: where an invariant holds two evaluations are the same, and it holds where they
  pause and end, with a result that has a given property.
* `Expr.evalWatched_agree`, `Stmt.execWatched_agree`, `execBlockWatched_agree`: expressions and
  statements agree with themselves under such a watch wherever calls do. The functions among the
  values are those that the program defines.
-/

namespace Stepper

/-- The function `f` is one that `program` defines, at the top or inside another statement. -/
def DefinedIn (program : List Stmt) (f : Function) : Prop :=
  ∃ around, Stands program around (.define f)

variable {P : Function → Prop}

/-! ## States -/

theorem wellFormed_of_lookup {bindings : List (String × Value)}
    (h : ∀ b ∈ bindings, b.2.WellFormed P) {name : String} {v : Value}
    (hv : bindings.lookup name = some v) : v.WellFormed P := by
  obtain ⟨before, after, rfl, -⟩ := List.lookup_eq_some_iff.1 hv
  exact h (name, v) (List.mem_append_right _ List.mem_cons_self)

/-- All values that are bound in `f` are well-formed. -/
def Frame.WellFormed (P : Function → Prop) (f : Frame) : Prop :=
  ∀ b ∈ f.bindings, b.2.WellFormed P

namespace Frame.WellFormed

variable {f : Frame}

theorem get? (h : f.WellFormed P) {name : String} {v : Value} (hv : f.get? name = some v) :
    v.WellFormed P :=
  wellFormed_of_lookup h hv

theorem set (h : f.WellFormed P) (name : String) {v : Value} (hv : v.WellFormed P) :
    (f.set name v).WellFormed P := by
  obtain ⟨_, _, _, bindings⟩ := f
  change ∀ b ∈ bindIn name v bindings, _
  replace h : ∀ b ∈ bindings, b.2.WellFormed P := h
  induction bindings with
  | nil => exact List.forall_mem_singleton.2 hv
  | cons b rest ih =>
    obtain ⟨n, w⟩ := b
    obtain ⟨hw, hrest⟩ := List.forall_mem_cons.1 h
    rw [bindIn]
    split
    · exact List.forall_mem_cons.2 ⟨hv, hrest⟩
    · exact List.forall_mem_cons.2 ⟨hw, ih hrest⟩

end Frame.WellFormed

/-- All values of `m` are well-formed, those of the store and those of the frames. -/
structure Machine.WellFormed (P : Function → Prop) (m : Machine) : Prop where
  store : m.store.WellFormed P
  globals : m.stack.globals.WellFormed P
  calls : ∀ f ∈ m.stack.calls, f.WellFormed P

namespace Machine

theorem wellFormed_start : start.WellFormed P := by
  refine ⟨Store.wellFormed_empty, ?_, nofun⟩
  intro b hb
  obtain rfl := List.mem_singleton.1 hb
  trivial

namespace WellFormed

variable {m : Machine}

theorem frame (h : m.WellFormed P) : m.frame.WellFormed P := by
  rw [Machine.frame, CallStack.current]
  cases hcalls : m.stack.calls with
  | nil => exact h.globals
  | cons top rest => exact h.calls top (hcalls ▸ List.mem_cons_self)

theorem load (h : m.WellFormed P) {name : String} {v : Value} (hv : m.load name = .ok v) :
    v.WellFormed P := by
  rw [Machine.load] at hv
  split at hv
  · split at hv
    · rename_i hget
      cases hv
      exact h.frame.get? hget
    · cases hv
  · split at hv
    · rename_i hget
      cases hv
      exact h.globals.get? hget
    · split at hv
      · cases hv
        trivial
      · cases hv

theorem modifyCurrent (h : m.WellFormed P) {f : Frame → Frame}
    (hf : ∀ g, g.WellFormed P → (f g).WellFormed P) :
    WellFormed P { m with stack := m.stack.modifyCurrent f } := by
  obtain ⟨store, ⟨globals, calls⟩, output⟩ := m
  cases calls with
  | nil => exact ⟨h.store, hf _ h.globals, h.calls⟩
  | cons top rest =>
    obtain ⟨htop, hrest⟩ := List.forall_mem_cons.1 h.calls
    exact ⟨h.store, h.globals, List.forall_mem_cons.2 ⟨hf _ htop, hrest⟩⟩

theorem bind (h : m.WellFormed P) (name : String) {v : Value} (hv : v.WellFormed P) :
    (m.bind name v).WellFormed P := by
  rw [Machine.bind]
  split
  · exact h.modifyCurrent fun g hg => hg.set name hv
  · exact ⟨h.store, h.globals.set name hv, h.calls⟩

theorem enterLine (h : m.WellFormed P) (line : Nat) : (m.enterLine line).WellFormed P :=
  h.modifyCurrent fun _ hg => hg

theorem push (h : m.WellFormed P) {f : Frame} (hf : f.WellFormed P) : (m.push f).WellFormed P :=
  ⟨h.store, h.globals, List.forall_mem_cons.2 ⟨hf, h.calls⟩⟩

theorem pop (h : m.WellFormed P) : m.pop.WellFormed P :=
  ⟨h.store, h.globals, fun f hf => h.calls f (List.mem_of_mem_tail hf)⟩

/-- The `output` does not matter. -/
theorem output (h : m.WellFormed P) (output : Output) :
    WellFormed P { m with output := output } :=
  ⟨h.store, h.globals, h.calls⟩

end WellFormed

end Machine

/-! ## Arguments -/

namespace Function

variable {f : Function}

/-- What the slots `filled` hold once the arguments by name are in them is well-formed. -/
theorem wellFormed_fillSlots {slots filled : List (Option Value)} {keywords : Keywords}
    (hslots : ∀ slot ∈ slots, ∀ v ∈ slot, v.WellFormed P)
    (hkeywords : ∀ k ∈ keywords, k.2.WellFormed P)
    (h : f.fillSlots slots keywords = .ok filled) :
    ∀ slot ∈ filled, ∀ v ∈ slot, v.WellFormed P := by
  induction keywords generalizing slots with
  | nil => cases h; exact hslots
  | cons k rest ih =>
    obtain ⟨name, value⟩ := k
    obtain ⟨hvalue, hrest⟩ := List.forall_mem_cons.1 hkeywords
    rw [fillSlots] at h
    split at h
    · cases h
    · split at h
      · cases h
      · refine ih (fun slot hslot => ?_) hrest h
        rcases List.mem_or_eq_of_mem_set hslot with hslot | rfl
        · exact hslots slot hslot
        · rintro v ⟨⟩
          exact hvalue

/-- Arguments that are bound fill all slots, which are no more than there are parameters: `bindings`
is what the slots hold, in the order of `f.params`. -/
theorem exists_of_bindArguments {args : List Value} {keywords : Keywords}
    {bindings : List (String × Value)} (h : f.bindArguments args keywords = .ok bindings) :
    args.length ≤ f.params.length ∧ ∃ slots, f.fillSlots (f.firstSlots args) keywords = .ok slots ∧
      (∀ b ∈ f.params.zip slots, b.2.isSome) ∧
      (f.params.zip (slots.filterMap id)).foldl (fun bound b => Frame.bindIn b.1 b.2 bound) [] =
        bindings := by
  rw [bindArguments] at h
  split at h
  · cases h
  · rename_i hcount
    change Except.bind (f.fillSlots _ keywords) _ = _ at h
    cases hslots : f.fillSlots (f.firstSlots args) keywords with
    | error fault => rw [hslots] at h; cases h
    | ok slots =>
      rw [hslots] at h
      dsimp only [Except.bind] at h
      split at h
      · rename_i hfilled
        rw [List.isEmpty_iff, List.filter_eq_nil_iff] at hfilled
        have hsome (b) (hb : b ∈ f.params.zip slots) : b.2.isSome := by
          rw [← Option.not_isNone, Bool.not_eq_true', Bool.eq_false_iff]
          exact hfilled b hb
        exact ⟨Nat.not_lt.1 hcount, slots, rfl, hsome, Except.ok.inj h⟩
      · cases h

/-- What a call of `f` starts with are its arguments, so its frame is well-formed. -/
theorem wellFormed_bindArguments {args : List Value} {keywords : Keywords}
    {bindings : List (String × Value)} (hargs : ∀ v ∈ args, v.WellFormed P)
    (hkeywords : ∀ k ∈ keywords, k.2.WellFormed P)
    (h : f.bindArguments args keywords = .ok bindings) :
    (Frame.ofCall f bindings).WellFormed P := by
  obtain ⟨-, slots, hslots, -, rfl⟩ := exists_of_bindArguments h
  have hstart : ∀ slot ∈ f.firstSlots args, ∀ v ∈ slot, v.WellFormed P := by
    intro slot hslot v hv
    rcases List.mem_append.1 hslot with hslot | hslot
    · obtain ⟨w, hw, rfl⟩ := List.mem_map.1 hslot
      obtain rfl := Option.some.inj hv
      exact hargs _ hw
    · obtain rfl := List.eq_of_mem_replicate hslot
      cases hv
  have hvalues : ∀ v ∈ slots.filterMap id, v.WellFormed P := by
    intro v hv
    obtain ⟨slot, hslot, hv⟩ := List.mem_filterMap.1 hv
    exact wellFormed_fillSlots hstart hkeywords hslots slot hslot v hv
  exact List.foldlRecOn (f.params.zip (slots.filterMap id)) _ (motive := fun bound =>
      (Frame.ofCall f bound).WellFormed P) nofun
    fun bound hbound b hb => hbound.set b.1 (hvalues b.2 (List.of_mem_zip hb).2)

end Function

/-! ## Evaluations -/

/-- The value that a flow gives back is well-formed. -/
def Flow.WellFormed (P : Function → Prop) : Flow → Prop
  | .giveBack v => v.WellFormed P
  | _ => True

/-- What an act works on is well-formed. -/
def Held.WellFormed (P : Function → Prop) : Held → Prop
  | .value v => v.WellFormed P
  | .values vs => ∀ v ∈ vs, v.WellFormed P
  | .entries d => d.WellFormed P

@[simp] theorem Held.wellFormed_value {v : Value} :
    (Held.value v).WellFormed P ↔ v.WellFormed P := Iff.rfl

@[simp] theorem Held.wellFormed_entries {d : Dict} :
    (Held.entries d).WellFormed P ↔ d.WellFormed P := Iff.rfl

/-! ## Invariants -/

/-- What holds of all states of a run if it holds of the first. An invariant `I` may be more than
that all values are well-formed, as long as it is kept when values are stored or bound, when a call
of a function with `P` is entered or left, and when lines and output change. -/
structure Machine.Invariant (P : Function → Prop) (I : Machine → Prop) : Prop where
  wellFormed {m : Machine} : I m → m.WellFormed P
  store {m : Machine} {s : Store} : I m → s.WellFormed P → I { m with store := s }
  output {m : Machine} (output : Output) : I m → I { m with output := output }
  enterLine {m : Machine} (line : Nat) : I m → I (m.enterLine line)
  bind {m : Machine} (name : String) {v : Value} : I m → v.WellFormed P → I (m.bind name v)
  call {m : Machine} {f : Function} {args : List Value} {keywords : Keywords}
    {bindings : List (String × Value)} : I m → P f → f.bindArguments args keywords = .ok bindings →
      (Frame.ofCall f bindings).WellFormed P → I (m.push (.ofCall f bindings))
  pop {m : Machine} : I m → I m.pop

theorem Machine.invariant_wellFormed : Invariant P (·.WellFormed P) where
  wellFormed := id
  store hm hs := ⟨hs, hm.globals, hm.calls⟩
  output output hm := hm.output output
  enterLine line hm := hm.enterLine line
  bind name _ hm hv := hm.bind name hv
  call hm _ _ hframe := hm.push hframe
  pop hm := hm.pop

/-- The `watch` does nothing before an act if the state and what the act works on are
well-formed. -/
def Watch.Quiet (P : Function → Prop) (watch : Watch) : Prop :=
  ∀ held, (∀ h ∈ held, h.WellFormed P) → ∀ m, m.WellFormed P → watch held m = .ended (.ok (), m)

theorem Watch.quiet_silent : silent.Quiet P :=
  fun _ _ _ _ => rfl

/-- The `watch` does nothing before an act if the invariant `I` holds of the state and what the act
works on is well-formed. -/
structure Watch.QuietOn (P : Function → Prop) (I : Machine → Prop) (watch : Watch) : Prop where
  invariant : Machine.Invariant P I
  quiet : ∀ held, (∀ h ∈ held, h.WellFormed P) → ∀ m, I m → watch held m = .ended (.ok (), m)

theorem Watch.Quiet.quietOn {watch : Watch} (h : watch.Quiet P) :
    watch.QuietOn P (·.WellFormed P) :=
  ⟨Machine.invariant_wellFormed, h⟩

variable {I : Machine → Prop}

theorem Watch.quietOn_silent (hI : Machine.Invariant P I) : silent.QuietOn P I :=
  ⟨hI, fun _ _ _ _ => rfl⟩

namespace Evaluation

/-- Where the invariant `I` holds, `x` is `x'`. It holds when they pause and end, and a result has
the property `Q`. -/
def Agree (I : Machine → Prop) (Q : α → Prop) (x x' : Evaluation α) : Prop :=
  ∀ m, I m → x m = x' m ∧
    (x m).Always (I ·.machine) fun r => I r.2 ∧ ∀ a, r.1 = .ok a → Q a

variable {Q : α → Prop} {R : β → Prop}

theorem Agree.bind {x x' : Evaluation α} {f f' : α → Evaluation β} (hx : Agree I Q x x')
    (hf : ∀ a, Q a → Agree I R (f a) (f' a)) : Agree I R (x >>= f) (x' >>= f') := by
  intro m hm
  obtain ⟨heq, halways⟩ := hx m hm
  refine ⟨?_, halways.bind fun (r, m₁) ⟨hm₁, hr⟩ => ?_⟩
  · change (x m).bind _ = (x' m).bind _
    rw [← heq]
    refine halways.bind_congr fun (r, m₁) ⟨hm₁, hr⟩ => ?_
    cases r with
    | ok a => exact (hf a (hr a rfl) m₁ hm₁).1
    | error i => rfl
  · cases r with
    | ok a => exact (hf a (hr a rfl) m₁ hm₁).2
    | error i => exact .ended ⟨hm₁, nofun⟩

/-- Acts that do not pause agree with themselves. -/
theorem agree_of_ended {x : Evaluation α}
    (h : ∀ m, I m → ∃ r m', x m = .ended (r, m') ∧ I m' ∧ ∀ a, r = .ok a → Q a) :
    Agree I Q x x := by
  intro m hm
  obtain ⟨r, m', hx, hm', hr⟩ := h m hm
  rw [hx]
  exact ⟨rfl, .ended ⟨hm', hr⟩⟩

theorem agree_pure {a : α} (h : Q a) : Agree I Q (pure a) (pure a) :=
  agree_of_ended fun m hm => ⟨_, m, rfl, hm, fun _ hb => Except.ok.inj hb ▸ h⟩

theorem agree_interrupt (i : Interrupt) : Agree I Q (interrupt i) (interrupt i) :=
  agree_of_ended fun m hm => ⟨_, m, rfl, hm, nofun⟩

theorem agree_raise (fault : Fault) (loc : Location) :
    Agree I Q (raise fault loc) (raise fault loc) :=
  agree_interrupt _

theorem agree_look {f : Machine → α} (h : ∀ m, I m → Q (f m)) :
    Agree I Q (look f) (look f) :=
  agree_of_ended fun m hm => ⟨_, m, rfl, hm, fun _ hb => Except.ok.inj hb ▸ h m hm⟩

theorem agree_modify {f : Machine → Machine} (h : ∀ m, I m → I (f m)) :
    Agree I (fun _ => True) (modify f) (modify f) :=
  agree_of_ended fun m hm => ⟨_, _, rfl, h m hm, fun _ _ => trivial⟩

theorem agree_perform (hI : Machine.Invariant P I) {op : Operation α} (h : op.Yields P Q)
    (loc : Location) : Agree I Q (perform op loc) (perform op loc) := by
  refine agree_of_ended fun m hm => ?_
  have hs := h m.store (hI.wellFormed hm).store
  unfold perform
  cases hop : op m.store with
  | error failure =>
    rw [hop] at hs
    exact ⟨_, _, rfl, hI.store hm hs, nofun⟩
  | ok r =>
    rw [hop] at hs
    exact ⟨_, _, rfl, hI.store hm hs.1, fun _ hb => Except.ok.inj hb ▸ hs.2⟩

theorem agree_enterLine (hI : Machine.Invariant P I) (loc : Location) :
    Agree I (fun _ => True) (enterLine loc) (enterLine loc) :=
  agree_modify fun _ hm => hI.enterLine loc.line hm

theorem agree_boundary (hI : Machine.Invariant P I) (loc : Location) :
    Agree I (fun _ => True) (boundary loc) (boundary loc) := by
  refine fun m hm => ⟨rfl, .paused hm fun reply => ?_⟩
  have houtput := hI.output (reply.keep.elim m.output m.output.trim) hm
  dsimp only
  split
  · exact .ended ⟨houtput, fun _ _ => trivial⟩
  · exact .ended ⟨houtput, fun _ _ => trivial⟩
  · exact .ended ⟨houtput, nofun⟩

theorem agree_bindName (hI : Machine.Invariant P I) (name : String) {v : Value}
    (hv : v.WellFormed P) : Agree I (fun _ => True) (bindName name v) (bindName name v) :=
  agree_modify fun _ hm => hI.bind name hm hv

theorem agree_truth (v : Value) : Agree I (fun _ => True) (truth v) (truth v) :=
  agree_look fun _ _ => trivial

/-- A quiet `watch` before `x'` makes no difference. -/
theorem agree_before {watch : Watch} (hwatch : watch.QuietOn P I) {x x' : Evaluation α}
    (h : Agree I Q x x') {held : List Held} (hheld : ∀ h ∈ held, h.WellFormed P) :
    Agree I Q x (watch.before held x') := by
  intro m hm
  have hbefore : watch.before held x' m = x' m := by
    show (watch held m).bind _ = _
    rw [hwatch.quiet held hheld m hm]
    rfl
  rw [hbefore]
  exact h m hm

theorem agree_performWatched {watch : Watch} (hwatch : watch.QuietOn P I) {op : Operation α}
    (h : op.Yields P Q) (loc : Location) {held : List Held} (hheld : ∀ h ∈ held, h.WellFormed P) :
    Agree I Q (perform op loc) (watch.before held (perform op loc)) :=
  agree_before hwatch (agree_perform hwatch.invariant h loc) hheld

theorem agree_turns {Q : Flow → Prop} {turn turn' : Nat → Evaluation (Option Flow)}
    (h : ∀ i, Agree I (fun flow? => ∀ flow ∈ flow?, Q flow) (turn i) (turn' i))
    (left i : Nat) : Agree I Q (turns turn left i) (turns turn' left i) := by
  refine turns_rel (S := Agree I Q) (agree_interrupt _) (fun hx hrest => ?_) turn turn' h left i
  refine hx.bind fun flow? hflow => ?_
  cases flow? with
  | none => exact hrest
  | some flow => exact agree_pure (hflow flow rfl)

theorem agree_inFrame (hI : Machine.Invariant P I) {frame : Frame}
    (hpush : ∀ m, I m → I (m.push frame)) {body body' : Evaluation α} (h : Agree I Q body body') :
    Agree I Q (inFrame frame body) (inFrame frame body') := by
  intro m hm
  obtain ⟨heq, halways⟩ := h (m.push frame) (hpush m hm)
  refine ⟨?_, halways.bind fun (r, m₁) ⟨hm₁, hr⟩ => ?_⟩
  · change (body (m.push frame)).bind _ = (body' (m.push frame)).bind _
    rw [heq]
  · cases r with
    | ok a => exact .ended ⟨hI.pop hm₁, fun _ hb => Except.ok.inj hb ▸ hr a rfl⟩
    | error i => exact .ended ⟨hI.pop hm₁, nofun⟩

end Evaluation

open Evaluation Watch Manner

/-! ## Expressions -/

/-- Where the invariant `I` holds, calls with well-formed arguments are the same on both sides, and
their values are well-formed. -/
def Caller.Agree (P : Function → Prop) (I : Machine → Prop) (call call' : Caller) : Prop :=
  ∀ f args keywords loc, P f → (∀ v ∈ args, v.WellFormed P) →
    (∀ k ∈ keywords, k.2.WellFormed P) →
    Evaluation.Agree I (·.WellFormed P) (call f args keywords loc) (call' f args keywords loc)

section Expressions

variable {call call' : Caller} {watch : Watch}

theorem loadName_agree (hI : Machine.Invariant P I) (name : String) (loc : Location) :
    Agree I (·.WellFormed P) (loadName name loc) (loadName name loc) := by
  have hload : Agree I (fun r => ∀ v, r = .ok v → v.WellFormed P) (look (·.load name))
      (look (·.load name)) := agree_look fun _ hm v hv => (hI.wellFormed hm).load hv
  refine hload.bind fun r hr => ?_
  cases r with
  | ok v => exact agree_pure (hr v rfl)
  | error fault => exact agree_raise fault loc

theorem callValue_agree (hI : Machine.Invariant P I) (hcall : call.Agree P I call')
    {callee : Value} (hcallee : callee.WellFormed P) {args : List Value}
    (hargs : ∀ v ∈ args, v.WellFormed P) {keywords : Keywords}
    (hkeywords : ∀ k ∈ keywords, k.2.WellFormed P) (loc : Location) :
    Agree I (·.WellFormed P) (callValue call callee args keywords loc)
      (callValue call' callee args keywords loc) := by
  cases callee with
  | function f => exact hcall f args keywords loc hcallee hargs hkeywords
  | builtin b =>
    exact (agree_perform hI (b.yields_call hargs keywords) loc).bind fun r hr =>
      (agree_modify fun _ hm => hI.output _ hm).bind fun _ _ => agree_pure hr
  | method receiver m => exact agree_perform hI (m.yields_call receiver hargs keywords) loc
  | _ => exact agree_raise _ loc

mutual

/-- An expression is the same under `watch` if calls are, and its value is well-formed. The
recursion is that of `Expr.evalWatched`: the operands first, as what they come to is `held` by the
act on them. -/
theorem Expr.evalWatched_agree (hwatch : watch.QuietOn P I) (hcall : call.Agree P I call') :
    (e : Expr) → Agree I (·.WellFormed P) (e.eval call) (e.evalWatched watch call')
  | .int _ _ | .float _ _ | .str _ _ | .bool _ _ | .none _ => by
    simp only [Expr.evalWatched]; exact agree_pure trivial
  | .name name loc => by
    simp only [Expr.evalWatched, before_silent]
    exact agree_before hwatch (loadName_agree hwatch.invariant name loc) nofun
  | .list items loc => by
    simp only [Expr.evalWatched, before_silent]
    refine (evalAllWatched_agree hwatch hcall items).bind fun vs hvs => ?_
    refine agree_performWatched hwatch (Operation.yields_newList fun v hv => ?_) loc ?_
    · exact hvs v (List.mem_toArray.1 hv)
    · simpa using hvs
  | .dict entries loc => by
    simp only [Expr.evalWatched, before_silent]
    refine (evalEntriesWatched_agree hwatch hcall loc Dict.wellFormed_empty entries).bind
      fun d hd => ?_
    exact agree_performWatched hwatch (Operation.yields_newDict hd) loc (by simpa using hd)
  | .arith op left right loc => by
    simp only [Expr.evalWatched, before_silent]
    refine (left.evalWatched_agree hwatch hcall).bind fun a ha =>
      (right.evalWatched_agree hwatch hcall).bind fun b hb => ?_
    exact agree_performWatched hwatch (op.yields_apply _ _) loc (by simp [ha, hb])
  | .logic op left right _ => by
    simp only [Expr.evalWatched, before_silent]
    refine (left.evalWatched_agree hwatch hcall).bind fun a ha =>
      (agree_before hwatch (agree_truth a) (by simpa using ha)).bind fun holds _ => ?_
    split
    · exact agree_pure ha
    · exact right.evalWatched_agree hwatch hcall
  | .compare first rest loc => by
    simp only [Expr.evalWatched]
    exact (first.evalWatched_agree hwatch hcall).bind fun a ha =>
      (evalLinksWatched_agree hwatch hcall loc ha rest).bind fun _ _ => agree_pure trivial
  | .unary op operand loc => by
    simp only [Expr.evalWatched, before_silent]
    refine (operand.evalWatched_agree hwatch hcall).bind fun a ha => ?_
    exact agree_performWatched hwatch (op.yields_apply _) loc (by simpa using ha)
  | .call callee args keywords loc => by
    simp only [Expr.evalWatched, before_silent]
    refine (callee.evalWatched_agree hwatch hcall).bind fun f hf =>
      (evalAllWatched_agree hwatch hcall args).bind fun values hvalues =>
        (evalKeywordsWatched_agree hwatch hcall keywords).bind fun named hnamed => ?_
    refine agree_before hwatch (callValue_agree hwatch.invariant hcall hf hvalues hnamed loc) ?_
    rw [List.forall_mem_cons, List.forall_mem_map, List.forall_mem_append, List.forall_mem_map]
    exact ⟨hf, hvalues, hnamed⟩
  | .index container key loc => by
    simp only [Expr.evalWatched, before_silent]
    refine (container.evalWatched_agree hwatch hcall).bind fun c hc =>
      (key.evalWatched_agree hwatch hcall).bind fun k hk => ?_
    exact agree_performWatched hwatch (Operation.yields_getItem _ _) loc (by simp [hc, hk])
  | .member receiver name loc => by
    simp only [Expr.evalWatched, before_silent]
    refine (receiver.evalWatched_agree hwatch hcall).bind fun v hv => ?_
    exact agree_performWatched hwatch (Operation.yields_getMember hv name) loc
      (by simpa using hv)

theorem evalAllWatched_agree (hwatch : watch.QuietOn P I) (hcall : call.Agree P I call') :
    (es : List Expr) →
    Agree I (fun vs => ∀ v ∈ vs, v.WellFormed P) (evalAll call es) (evalAllWatched watch call' es)
  | [] => by
    simp only [evalAllWatched]; exact agree_pure nofun
  | e :: rest => by
    simp only [evalAllWatched]
    exact (e.evalWatched_agree hwatch hcall).bind fun v hv =>
      (evalAllWatched_agree hwatch hcall rest).bind fun vs hvs =>
        agree_pure (List.forall_mem_cons.2 ⟨hv, hvs⟩)

theorem evalKeywordsWatched_agree (hwatch : watch.QuietOn P I) (hcall : call.Agree P I call') :
    (es : List (String × Expr)) →
    Agree I (fun ks => ∀ k ∈ ks, k.2.WellFormed P) (evalKeywords call es)
      (evalKeywordsWatched watch call' es)
  | [] => by
    simp only [evalKeywordsWatched]; exact agree_pure nofun
  | (name, e) :: rest => by
    simp only [evalKeywordsWatched]
    exact (e.evalWatched_agree hwatch hcall).bind fun v hv =>
      (evalKeywordsWatched_agree hwatch hcall rest).bind fun ks hks =>
        agree_pure (List.forall_mem_cons.2 ⟨hv, hks⟩)

theorem evalEntriesWatched_agree (hwatch : watch.QuietOn P I) (hcall : call.Agree P I call')
    (loc : Location) {d : Dict} (hd : d.WellFormed P) :
    (es : List (Expr × Expr)) → Agree I (·.WellFormed P) (evalEntries call loc d es)
      (evalEntriesWatched watch call' loc d es)
  | [] => by
    simp only [evalEntriesWatched]; exact agree_pure hd
  | (key, value) :: rest => by
    simp only [evalEntriesWatched, before_silent]
    refine (key.evalWatched_agree hwatch hcall).bind fun k hk => ?_
    have hheld : ∀ h ∈ [Held.entries d, .value k], h.WellFormed P := by simp [hd, hk]
    have hcheck := agree_performWatched hwatch (Operation.yields_checkKey k) loc hheld
    exact hcheck.bind fun _ hhashable => (value.evalWatched_agree hwatch hcall).bind fun v hv =>
      evalEntriesWatched_agree hwatch hcall loc (hd.insert hhashable hk hv) rest

theorem evalLinksWatched_agree (hwatch : watch.QuietOn P I) (hcall : call.Agree P I call')
    (loc : Location) {left : Value} (hleft : left.WellFormed P) :
    (es : List (CompareOp × Expr)) → Agree I (fun _ => True) (evalLinks call loc left es)
      (evalLinksWatched watch call' loc left es)
  | [] => by
    simp only [evalLinksWatched]; exact agree_pure trivial
  | (op, e) :: rest => by
    simp only [evalLinksWatched, before_silent]
    refine (e.evalWatched_agree hwatch hcall).bind fun right hright => ?_
    refine (agree_performWatched hwatch (op.keeps_apply left right) loc
      (by simp [hleft, hright])).bind fun holds _ => ?_
    split
    · exact evalLinksWatched_agree hwatch hcall loc hright rest
    · exact agree_pure trivial

end

/-- An expression `e` is the same on both sides if calls are, and its value is well-formed. -/
theorem Expr.eval_agree (hI : Machine.Invariant P I) (hcall : call.Agree P I call') (e : Expr) :
    Agree I (·.WellFormed P) (e.eval call) (e.eval call') :=
  e.evalWatched_agree (Watch.quietOn_silent hI) hcall

end Expressions

/-! ## Statements -/

section Statements

variable {call call' : Caller} {watch : Watch} {program : List Stmt}

/-- Expressions are the same under `watch`, and their values well-formed. -/
def EvalAgree (P : Function → Prop) (I : Machine → Prop) (watch : Watch) (call call' : Caller) :
    Prop :=
  ∀ e : Expr, Agree I (·.WellFormed P) (e.eval call) (e.evalWatched watch call')

theorem enterLineWatched_agree (hwatch : watch.QuietOn P I) (loc : Location) :
    Agree I (fun _ => True) (enterLine loc) (enterLineWatched watch loc) :=
  agree_before hwatch (agree_enterLine hwatch.invariant loc) nofun

theorem boundaryWatched_agree (hwatch : watch.QuietOn P I) (loc : Location) :
    Agree I (fun _ => True) (boundary loc) (boundaryWatched watch loc) :=
  agree_before hwatch (agree_boundary hwatch.invariant loc) nofun

theorem bindNameWatched_agree (hwatch : watch.QuietOn P I) (name : String) {v : Value}
    (hv : v.WellFormed P) :
    Agree I (fun _ => True) (bindName name v) (bindNameWatched watch name v) :=
  agree_before hwatch (agree_bindName hwatch.invariant name hv) (by simpa using hv)

theorem Target.assignWatched_agree (hwatch : watch.QuietOn P I)
    (hexpr : EvalAgree P I watch call call') (loc : Location) {value : Value}
    (hvalue : value.WellFormed P) (target : Target) :
    Agree I (fun _ => True) (target.assign call loc value)
      (target.assignWatched watch call' loc value) := by
  cases target with
  | name n => exact bindNameWatched_agree hwatch n hvalue
  | item container key =>
    refine (hexpr container).bind fun c hc => (hexpr key).bind fun k hk => ?_
    exact agree_performWatched hwatch (Operation.keeps_setItem hk hvalue) loc
      (by simp [hc, hk, hvalue])

theorem Target.updateWatched_agree (hwatch : watch.QuietOn P I)
    (hexpr : EvalAgree P I watch call call') (loc : Location) (op : ArithOp) (e : Expr)
    (target : Target) :
    Agree I (fun _ => True) (target.update call loc op e)
      (target.updateWatched watch call' loc op e) := by
  cases target with
  | name n =>
    have hload := loadName_agree hwatch.invariant n loc
    refine (agree_before hwatch hload (List.forall_mem_nil _)).bind
      fun current hcurrent => (hexpr e).bind fun v hv => ?_
    have hheld : ∀ h ∈ [Held.value current, .value v], h.WellFormed P := by simp [hcurrent, hv]
    exact (agree_performWatched hwatch op.yields_update loc hheld).bind fun _ hupdated =>
      bindNameWatched_agree hwatch n hupdated
  | item container key =>
    refine (hexpr container).bind fun c hc => (hexpr key).bind fun k hk => ?_
    have hheld : ∀ h ∈ [Held.value c, .value k], h.WellFormed P := by simp [hc, hk]
    refine (agree_performWatched hwatch (Operation.yields_getItem _ _) loc hheld).bind
      fun current hcurrent => (hexpr e).bind fun v hv => ?_
    have hheld : ∀ h ∈ [Held.value c, .value k, .value current, .value v], h.WellFormed P := by
      simp [hc, hk, hcurrent, hv]
    refine (agree_performWatched hwatch op.yields_update loc hheld).bind
      fun updated hupdated => ?_
    exact agree_performWatched hwatch (Operation.keeps_setItem hk hupdated) loc
      (by simp [hc, hk, hupdated])

theorem stepWatched_agree (hwatch : watch.QuietOn P I) (loc : Location) (flow : Flow)
    (hflow : flow.WellFormed P) {act act' : Evaluation Unit}
    (hact : Agree I (fun _ => True) act act') :
    Agree I (·.WellFormed P) (step loc flow act) (stepWatched watch loc flow act') :=
  (enterLineWatched_agree hwatch loc).bind fun _ _ => hact.bind fun _ _ =>
    (boundaryWatched_agree hwatch loc).bind fun _ _ => agree_pure hflow

theorem testWatched_agree (hwatch : watch.QuietOn P I) (hexpr : EvalAgree P I watch call call')
    (condition : Expr) (loc : Location) :
    Agree I (fun _ => True) (test call condition loc) (testWatched watch call' condition loc) :=
  (enterLineWatched_agree hwatch loc).bind fun _ _ => (hexpr condition).bind fun v hv =>
    (agree_before hwatch (agree_truth v) (by simpa using hv)).bind fun _ _ =>
      (boundaryWatched_agree hwatch loc).bind fun _ _ => agree_pure trivial

theorem Flow.WellFormed.endOfLoop {flow flow' : Flow} (h : flow.WellFormed P)
    (hend : flow.endOfLoop = some flow') : flow'.WellFormed P := by
  cases flow <;> cases hend
  · trivial
  · exact h

/-- What is walked over is well-formed; in particular the step of a range is not `0`. -/
def Walk.WellFormed (P : Function → Prop) : Walk → Prop
  | .list _ => True
  | .range r => r.step ≠ 0
  | .items values => ∀ v ∈ values, v.WellFormed P

theorem Walk.WellFormed.item? {walk : Walk} (h : walk.WellFormed P) {s : Store}
    (hs : s.WellFormed P) (i : Nat) {v : Value} (hv : walk.item? s i = some v) :
    v.WellFormed P := by
  cases walk with
  | list place => exact hs.list place v (Array.mem_of_getElem? hv)
  | range r =>
    simp only [Walk.item?] at hv
    split at hv
    · cases hv
      trivial
    · cases hv
  | items values => exact h v (Array.mem_of_getElem? hv)

theorem Operation.yields_walk {v : Value} (hv : v.WellFormed P) :
    Yields P (·.WellFormed P) (Operation.walk v) := by
  unfold Operation.walk
  split
  · exact yields_pure trivial
  · exact yields_pure hv
  · exact yields_items.bind fun vs hvs => yields_pure fun w hw => hvs w (List.mem_toArray.1 hw)

theorem Walk.WellFormed.held {walk : Walk} (h : walk.WellFormed P) :
    ∀ held ∈ walk.held, held.WellFormed P := by
  cases walk with
  | list place => exact List.forall_mem_singleton.2 trivial
  | range r => exact List.forall_mem_singleton.2 h
  | items values => exact List.forall_mem_singleton.2 h

theorem Flow.WellFormed.held {flow : Flow} (h : flow.WellFormed P) :
    ∀ held ∈ flow.held, held.WellFormed P := by
  cases flow with
  | giveBack v => exact List.forall_mem_singleton.2 h
  | _ => exact nofun

mutual

/-- A statement of `program` is the same under `watch` if expressions are. -/
theorem Stmt.execWatched_agree (hwatch : watch.QuietOn (DefinedIn program) I) (limit : Nat)
    (hexpr : EvalAgree (DefinedIn program) I watch call call') :
    (s : Stmt) → (∃ around, Stands program around s) →
      Agree I (·.WellFormed (DefinedIn program)) (s.exec call limit)
        (s.execWatched watch call' limit)
  | .expr e loc, _ => by
    simp only [Stmt.execIn, watch_plain, watch_watched, before_silent]
    refine stepWatched_agree hwatch loc .normal trivial ((hexpr e).bind fun v hv => ?_)
    exact agree_before hwatch (agree_pure trivial) (by simpa using hv)
  | .assign target e loc, _ => by
    simp only [Stmt.execIn, watch_plain, watch_watched]
    exact stepWatched_agree hwatch loc .normal trivial ((hexpr e).bind fun v hv =>
      target.assignWatched_agree hwatch hexpr loc hv)
  | .augment target op e loc, _ => by
    simp only [Stmt.execIn, watch_plain, watch_watched]
    exact stepWatched_agree hwatch loc .normal trivial
      (target.updateWatched_agree hwatch hexpr loc op e)
  | .conditional branches otherwise loc, ⟨around, h⟩ => by
    simp only [Stmt.execIn, watch_plain, watch_watched]
    refine (enterLineWatched_agree hwatch loc).bind fun _ _ => ?_
    -- Statements inside stand in the program as well, so functions they define are known.
    have hotherwise : ∀ body ∈ otherwise, ∀ s ∈ body, ∃ around, Stands program around s :=
      fun body hbody s hs =>
        ⟨_, h.inside (List.mem_append_right _ (Option.mem_toList.2 hbody)) hs⟩
    have hbranches : ∀ b ∈ branches, ∀ s ∈ b.body, ∃ around, Stands program around s :=
      fun b hb s hs => ⟨_, h.inside (List.mem_append_left _ (List.mem_map_of_mem hb)) hs⟩
    exact execBranchesWatched_agree hwatch limit hexpr
      (execOtherwiseWatched_agree hwatch limit hexpr otherwise hotherwise) branches hbranches
  | .whileLoop condition body loc, ⟨around, h⟩ => by
    simp only [Stmt.execIn, watch_plain, watch_watched]
    have hbody := execBlockWatched_agree hwatch limit hexpr body fun s hs =>
      ⟨_, h.inside List.mem_cons_self hs⟩
    refine agree_turns (fun _ => ?_) limit 0
    refine (testWatched_agree hwatch hexpr condition loc).bind fun holds _ => ?_
    cases holds with
    | true => exact hbody.bind fun _ hflow => agree_pure fun _ hend => hflow.endOfLoop hend
    | false => exact agree_pure fun _ hend => Option.some.inj hend ▸ trivial
  | .forLoop var iterable body loc, ⟨around, h⟩ => by
    simp only [Stmt.execIn, watch_plain, watch_watched, before_silent]
    have hbody := execBlockWatched_agree hwatch limit hexpr body fun s hs =>
      ⟨_, h.inside List.mem_cons_self hs⟩
    refine (enterLineWatched_agree hwatch loc).bind fun _ _ => (hexpr iterable).bind fun v hv => ?_
    -- What is walked over is well-formed, and so is each item that `item?` finds later.
    have hheld : ∀ h ∈ [Held.value v], h.WellFormed (DefinedIn program) := by simpa using hv
    refine (agree_performWatched hwatch (Operation.yields_walk hv) loc hheld).bind
      fun walk hwalk => agree_turns (fun i => ?_) limit 0
    have hitem : Agree I
        (fun item? => ∀ v, item? = some v → v.WellFormed (DefinedIn program))
        (look fun m => walk.item? m.store i) (look fun m => walk.item? m.store i) :=
      agree_look fun m hm v hv => hwalk.item? (hwatch.invariant.wellFormed hm).store i hv
    refine (agree_before hwatch hitem hwalk.held).bind fun item? hv => ?_
    cases item? with
    | none => exact agree_pure fun _ hend => Option.some.inj hend ▸ trivial
    | some item =>
      exact (enterLineWatched_agree hwatch loc).bind fun _ _ =>
        (bindNameWatched_agree hwatch var (hv item rfl)).bind fun _ _ =>
          (boundaryWatched_agree hwatch loc).bind fun _ _ => hbody.bind fun _ hflow =>
            agree_pure fun _ hend => hflow.endOfLoop hend
  | .define f, hf => by
    simp only [Stmt.execIn, watch_plain, watch_watched]
    exact stepWatched_agree hwatch f.loc .normal trivial (bindNameWatched_agree hwatch f.name hf)
  | .giveBack none loc, _ => by
    simp only [Stmt.execIn, watch_plain, watch_watched]
    exact stepWatched_agree hwatch loc (.giveBack .none) trivial (agree_pure trivial)
  | .giveBack (some e) loc, _ => by
    simp only [Stmt.execIn, watch_plain, watch_watched, before_silent]
    exact (enterLineWatched_agree hwatch loc).bind fun _ _ => (hexpr e).bind fun _ hv =>
      (agree_before hwatch (agree_boundary hwatch.invariant loc) (by simpa using hv)).bind
        fun _ _ => agree_pure hv
  | .breakLoop loc, _ => by
    simp only [Stmt.execIn, watch_plain, watch_watched]
    exact stepWatched_agree hwatch loc .breakLoop trivial (agree_pure trivial)
  | .continueLoop loc, _ => by
    simp only [Stmt.execIn, watch_plain, watch_watched]
    exact stepWatched_agree hwatch loc .continueLoop trivial (agree_pure trivial)
  | .pass loc, _ => by
    simp only [Stmt.execIn, watch_plain, watch_watched]
    exact stepWatched_agree hwatch loc .normal trivial (agree_pure trivial)
  | .global _ loc, _ => by
    simp only [Stmt.execIn, watch_plain, watch_watched]
    exact (enterLineWatched_agree hwatch loc).bind fun _ _ => agree_pure trivial

/-- A block of `program` is the same under `watch` if expressions are. -/
theorem execBlockWatched_agree (hwatch : watch.QuietOn (DefinedIn program) I) (limit : Nat)
    (hexpr : EvalAgree (DefinedIn program) I watch call call') :
    (body : List Stmt) → (∀ s ∈ body, ∃ around, Stands program around s) →
      Agree I (·.WellFormed (DefinedIn program)) (execBlock call limit body)
        (execBlockWatched watch call' limit body)
  | [], _ => by
    simp only [execBlockIn, watch_plain, watch_watched, before_silent]
    exact agree_before hwatch (agree_pure trivial) nofun
  | s :: rest, h => by
    obtain ⟨hs, hrest⟩ := List.forall_mem_cons.1 h
    simp only [execBlockIn, watch_plain, watch_watched, atLine_plain, atLine_watched, before_silent]
    refine (s.execWatched_agree hwatch limit hexpr hs).bind fun flow hflow => ?_
    cases flow with
    | normal => exact execBlockWatched_agree hwatch limit hexpr rest hrest
    | _ => exact agree_before hwatch (agree_pure hflow) hflow.held

theorem execBranchesWatched_agree (hwatch : watch.QuietOn (DefinedIn program) I) (limit : Nat)
    (hexpr : EvalAgree (DefinedIn program) I watch call call')
    {otherwise otherwise' : Evaluation Flow}
    (hotherwise : Agree I (·.WellFormed (DefinedIn program)) otherwise
      otherwise') :
    (branches : List Branch) →
      (∀ b ∈ branches, ∀ s ∈ b.body, ∃ around, Stands program around s) →
      Agree I (·.WellFormed (DefinedIn program))
        (execBranches call limit otherwise branches)
        (execBranchesWatched watch call' limit otherwise' branches)
  | [], _ => by
    simp only [execBranchesIn]; exact hotherwise
  | ⟨condition, body, loc⟩ :: rest, h => by
    obtain ⟨hbody, hrest⟩ := List.forall_mem_cons.1 h
    simp only [execBranchesIn, watch_plain, watch_watched, atLine_plain, atLine_watched]
    refine (testWatched_agree hwatch hexpr condition loc).bind fun holds _ => ?_
    cases holds with
    | true => exact execBlockWatched_agree hwatch limit hexpr body hbody
    | false => exact execBranchesWatched_agree hwatch limit hexpr hotherwise rest hrest

theorem execOtherwiseWatched_agree (hwatch : watch.QuietOn (DefinedIn program) I) (limit : Nat)
    (hexpr : EvalAgree (DefinedIn program) I watch call call') :
    (otherwise : Option (List Stmt)) →
      (∀ body ∈ otherwise, ∀ s ∈ body, ∃ around, Stands program around s) →
      Agree I (·.WellFormed (DefinedIn program))
        (execOtherwise call limit otherwise) (execOtherwiseWatched watch call' limit otherwise)
  | none, _ => by
    simp only [execOtherwiseIn]; exact agree_pure trivial
  | some body, h => by
    simp only [execOtherwiseIn]
    exact execBlockWatched_agree hwatch limit hexpr body (h body rfl)

end

/-- A block of `program` is the same on both sides if expressions are. -/
theorem execBlock_agree (hI : Machine.Invariant (DefinedIn program) I) (limit : Nat)
    (hexpr : ∀ e : Expr, Agree I (·.WellFormed (DefinedIn program))
      (e.eval call) (e.eval call'))
    (body : List Stmt) (h : ∀ s ∈ body, ∃ around, Stands program around s) :
    Agree I (·.WellFormed (DefinedIn program)) (execBlock call limit body)
      (execBlock call' limit body) :=
  execBlockWatched_agree (Watch.quietOn_silent hI) limit hexpr body h

end Statements

end Stepper
