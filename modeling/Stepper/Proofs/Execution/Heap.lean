import Stepper.Proofs.Execution.ControlFlow
import Stepper.Proofs.Operation.Attributes

/-!
# The heap is well-formed throughout a run

* `callWithin_agree_watched`: calls of the program's functions are the same under a quiet watch.
* `Program.runWatched_eq_run`: so a run is the same under such a watch; `Program.run_wellFormed`:
  its states are well-formed at every pause and at its end. Both are cases of what holds for any
  invariant, `Program.runWatched_eq_run_of_quietOn` and `Program.run_invariant`.
* `Held.AtFault`: what an act cannot work on: a range whose remainders would be divided by zero, and
  a method whose call does not find it.
* `Program.heap_wellFormed`: what this means for the runs of a program.
-/

namespace Stepper

open Evaluation Watch Manner

/-! ## Runs under a quiet watch -/

section Watched

variable {program : List Stmt} {watch : Watch} {I : Machine → Prop}

/-- Calls of the program's functions are the same under `watch`, by induction on `left`, the number
of calls that are left. -/
theorem callWithin_agree_watched (hwatch : watch.QuietOn (DefinedIn program) I)
    (limit left : Nat) :
    (callWithin limit left).Agree (DefinedIn program) I (callWatched watch limit left) := by
  induction left with
  | zero => exact fun _ _ _ loc _ _ _ => agree_raise _ loc
  | succ left ih =>
    intro f args keywords loc hf hargs hkeywords
    simp only [callIn, watch_plain, inFrame_plain, watch_watched, inFrame_watched, before_silent]
    cases hbindings : f.bindArguments args keywords with
    | error fault => exact agree_raise fault loc
    | ok bindings =>
      have hframe := Function.wellFormed_bindArguments hargs hkeywords hbindings
      have hbody := execBlockWatched_agree hwatch limit (fun e => e.evalWatched_agree hwatch ih)
        f.body hf.stands
      have hpush (m : Machine) (hm : I m) : I (m.push (.ofCall f bindings)) :=
        hwatch.invariant.call hm hf hbindings hframe
      refine (agree_inFrame hwatch.invariant hpush hbody).bind fun flow hflow => ?_
      cases flow with
      | giveBack v =>
        have hv : v.WellFormed (DefinedIn program) := hflow
        exact agree_before hwatch (agree_pure hv) (by simpa using hv)
      | normal | breakLoop | continueLoop =>
        exact agree_before hwatch (agree_pure trivial) (List.forall_mem_nil _)

end Watched

namespace Program

variable (p : Program) (limit : Nat) {I : Machine → Prop}

theorem block_agree {watch : Watch} (hwatch : watch.QuietOn (DefinedIn p.body) I) :
    Agree I (·.WellFormed (DefinedIn p.body))
      (execBlock (callWithin limit callLimit) limit p.body)
      (execBlockWatched watch (callWatched watch limit callLimit) limit p.body) :=
  execBlockWatched_agree hwatch limit
    (fun e => e.evalWatched_agree hwatch (callWithin_agree_watched hwatch limit callLimit)) p.body
    fun _ hs => ⟨[], .top hs⟩

/-- A run is the same under a `watch` that is quiet on an invariant `I`. -/
theorem runWatched_eq_run_of_quietOn {watch : Watch} (hwatch : watch.QuietOn (DefinedIn p.body) I)
    (hstart : I Machine.start) : p.runWatched watch limit = p.run limit := by
  rw [runWatched, run, (p.block_agree limit hwatch Machine.start hstart).1]

/-- A run is the same under a `watch` that is quiet, which means on well-formed states. -/
theorem runWatched_eq_run {watch : Watch} (hwatch : watch.Quiet (DefinedIn p.body)) :
    p.runWatched watch limit = p.run limit :=
  p.runWatched_eq_run_of_quietOn limit hwatch.quietOn Machine.wellFormed_start

/-- An invariant `I` that holds at the start holds at every pause of a run and at its end. -/
theorem run_invariant (hI : Machine.Invariant (DefinedIn p.body) I) (hstart : I Machine.start) :
    (p.run limit).Always (I ·.machine) fun r => I r.2 := by
  have hblock := (p.block_agree limit (Watch.quietOn_silent hI) Machine.start hstart).2
  exact hblock.bind fun (_, _) hr => .ended hr.1

/-- The states of a run of `p` are `WellFormed` at every pause and at its end. -/
theorem run_wellFormed :
    (p.run limit).Always (·.machine.WellFormed (DefinedIn p.body))
      fun r => r.2.WellFormed (DefinedIn p.body) :=
  p.run_invariant limit Machine.invariant_wellFormed Machine.wellFormed_start

end Program

/-! ## What an act cannot work on -/

/-- A range with the step `0`, among whose remainders no number can be looked for, or a method whose
call fails with an `AttributeError`, because its receiver does not have it. -/
def Value.AtFault : Value → Prop
  | .range r => r.step.toInt = 0
  | .method receiver m => ∃ args keywords s failure,
      m.call receiver args keywords s = .error failure ∧ failure.fault.kind = .attributeError
  | _ => False

/-- One of the values that an act works on is `AtFault`. -/
def Held.AtFault : Held → Prop
  | .value v => v.AtFault
  | .values vs => ∃ v ∈ vs, v.AtFault
  | .entries _ => False

theorem Value.WellFormed.not_atFault {P : Function → Prop} {v : Value} (h : v.WellFormed P) :
    ¬ v.AtFault := by
  cases v with
  | range r =>
    intro hzero
    exact h (Int64.toInt_inj.1 hzero)
  | method receiver m =>
    rintro ⟨args, keywords, s, failure, hcall, hkind⟩
    exact m.noAttributeError_call h.1 args keywords s failure hcall hkind
  | _ => exact id

theorem Held.WellFormed.not_atFault {P : Function → Prop} {held : Held} (h : held.WellFormed P) :
    ¬ held.AtFault := by
  cases held with
  | value v => exact Value.WellFormed.not_atFault h
  | values vs =>
    rintro ⟨v, hv, hfault⟩
    exact (h v hv).not_atFault hfault
  | entries d => exact id

open Classical in
/-- Does `alarm` before an act that works on a value `AtFault`, and nothing before others. -/
noncomputable def Watch.onFault (alarm : Watch) : Watch := fun held =>
  if ∃ h ∈ held, h.AtFault then alarm held else pure ()

theorem Watch.quiet_onFault (P : Function → Prop) (alarm : Watch) : alarm.onFault.Quiet P := by
  intro held hheld m _
  have hnone : ¬ ∃ h ∈ held, h.AtFault := fun ⟨h, hmem, hfault⟩ => (hheld h hmem).not_atFault hfault
  rw [onFault, if_neg hnone]
  rfl

/-- Whatever the `hook` is, the state is `WellFormed` at every pause and at the end of a run: the
keys of a dict are hashable and none matches a later one, no range has the step `0`, and every bound
method belongs to a value that has it. So it is before every act of the run, together with what the
act works on: `runWatched` is `run` for each watch that does something only where one of these is
not well-formed. In particular nothing is ever `AtFault` before an act: no range in which a number
is looked for has remainders by zero, and no call of a method does not find it. -/
theorem Program.heap_wellFormed (p : Program) (limit : Nat) :
    (∀ (σ : Type) (hook : Pause → StateM σ Reply) (t : σ),
      (∀ c ∈ (p.run limit).history hook t, c.1.machine.WellFormed (DefinedIn p.body)) ∧
      ((p.run limit).drive hook t).1.2.WellFormed (DefinedIn p.body)) ∧
    (∀ watch : Watch, watch.Quiet (DefinedIn p.body) → p.runWatched watch limit = p.run limit) ∧
    (∀ alarm : Watch, p.runWatched alarm.onFault limit = p.run limit) := by
  have hrun := p.run_wellFormed limit
  refine ⟨fun σ hook t => ⟨hrun.history, hrun.drive⟩, fun watch hwatch => ?_, fun alarm => ?_⟩
  · exact p.runWatched_eq_run limit hwatch
  · exact p.runWatched_eq_run limit (Watch.quiet_onFault _ alarm)

/-- A run that calls a bound method and looks for `number` in a range, under an alarm and under no
watch at all. -/
theorem Program.heap_wellFormed_method :
    let number : Expr := .int 2 ⟨2, 3⟩
    let range : Expr := .call (.name "range" ⟨2, 8⟩) [.int 3 ⟨2, 14⟩] [] ⟨2, 13⟩
    let search : Expr := .compare number [(.isIn, range)] ⟨2, 3⟩
    let p : Program :=
      ⟨[.assign (.name "m") (.member (.list [] ⟨1, 5⟩) "append" ⟨1, 7⟩) ⟨1, 1⟩,
        .expr (.call (.name "m" ⟨2, 1⟩) [search] [] ⟨2, 2⟩) ⟨2, 1⟩],
        ["m = [].append", "m(2 in range(3))"]⟩
    ofSource "m = [].append\nm(2 in range(3))\n" = .ok p ∧
      Watch.silent.Quiet (DefinedIn p.body) ∧ p.runWatched .silent 1 = p.run 1 ∧
      p.runWatched (Watch.onFault fun _ => interrupt .unfinished) 1 = p.run 1 := by
  intro number range search p
  have hsource : ofSource "m = [].append\nm(2 in range(3))\n" = .ok p := by
    rw [ofSource_of_lexemes (by cbv)]
    rfl
  obtain ⟨-, hquiet, halarm⟩ := p.heap_wellFormed 1
  exact ⟨hsource, Watch.quiet_silent, hquiet _ Watch.quiet_silent, halarm _⟩

end Stepper
