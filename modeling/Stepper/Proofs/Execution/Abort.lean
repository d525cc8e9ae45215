import Stepper.Proofs.Execution.Congruence

/-!
# Programs obey their hook

* `Execution.Obeys`: an execution that ends, and counts as aborted, as soon as it is told to abort,
  and that never counts as aborted otherwise.
* `Program.run_obeys`: every program obeys: the interrupt of a pause leaves all blocks, loops and
  calls unchanged.
-/

namespace Stepper

/-- An execution that ends at once with `Aborted` if a reply is to abort, and in no other case. -/
inductive Execution.Obeys (Aborted : α → Prop) : Execution α → Prop
  | ended {a : α} : ¬ Aborted a → Obeys Aborted (.ended a)
  | paused {p : Pause} {resume : Reply → Execution α} :
      (∀ reply, reply.answer = .abort → ∃ a, Aborted a ∧ resume reply = .ended a) →
      (∀ reply, reply.answer ≠ .abort → Obeys Aborted (resume reply)) →
      Obeys Aborted (.paused p resume)

theorem Execution.Obeys.bind {x : Execution α} {f : α → Execution β} {A : α → Prop} {B : β → Prop}
    (hx : x.Obeys A) (habort : ∀ a, A a → ∃ b, B b ∧ f a = .ended b)
    (hf : ∀ a, ¬ A a → (f a).Obeys B) : (x.bind f).Obeys B := by
  induction hx with
  | ended ha => exact hf _ ha
  | paused hstop _ ih =>
    refine .paused (fun reply hr => ?_) ih
    obtain ⟨a, ha, hresume⟩ := hstop reply hr
    obtain ⟨b, hb, hfa⟩ := habort a ha
    exact ⟨b, hb, by simp only [hresume, Execution.bind, hfa]⟩

namespace Evaluation

/-- An evaluation that is interrupted by `aborted` at once if a reply is to abort, and in no other
case. -/
def Obeys (x : Evaluation α) : Prop :=
  ∀ m, (x m).Obeys fun r => r.1 = .error .aborted

theorem Obeys.bind {x : Evaluation α} {f : α → Evaluation β} (hx : x.Obeys)
    (hf : ∀ a, (f a).Obeys) : (x >>= f).Obeys := by
  intro m
  refine Execution.Obeys.bind (hx m) (fun (r, m') hr => ?_) fun (r, m') hr => ?_
  · subst hr; exact ⟨_, rfl, rfl⟩
  · cases r with
    | ok a => exact hf a m'
    | error i => exact .ended fun h => hr (by simpa using h)

theorem obeys_pure (a : α) : (pure a : Evaluation α).Obeys :=
  fun _ => .ended nofun

theorem obeys_look (f : Machine → α) : (look f).Obeys :=
  fun _ => .ended nofun

theorem obeys_modify (f : Machine → Machine) : (modify f).Obeys :=
  fun _ => .ended nofun

theorem obeys_interrupt {i : Interrupt} (hi : i ≠ .aborted) :
    (interrupt i : Evaluation α).Obeys :=
  fun _ => .ended fun h => hi (by simpa using h)

theorem obeys_perform (op : Operation α) (loc : Location) : (perform op loc).Obeys := by
  intro m
  unfold perform
  split <;> exact .ended (by simp)

theorem obeys_boundary (loc : Location) : (boundary loc).Obeys := by
  refine fun m => .paused (fun reply hr => ?_) fun reply hr => ?_
  · simp only [hr]; exact ⟨_, rfl, rfl⟩
  · cases ha : reply.answer with
    | step | goOn => exact .ended nofun
    | abort => exact absurd ha hr

theorem obeys_inFrame (frame : Frame) {body : Evaluation α} (h : body.Obeys) :
    (inFrame frame body).Obeys := by
  intro m
  refine Execution.Obeys.bind (h _) (fun (r, m') hr => ?_) fun (r, m') hr => ?_
  · subst hr; exact ⟨_, rfl, rfl⟩
  · cases r with
    | ok a => exact .ended nofun
    | error i => exact .ended fun h => hr (by simpa [Interrupt.leave_eq_iff] using h)

theorem obeys_congruence (limit : Nat) : BlockCongruence (fun x _ => x.Obeys) limit limit where
  pure := obeys_pure
  bind := Obeys.bind
  raise _ _ := obeys_interrupt nofun
  load _ := obeys_look _
  truth _ := obeys_look _
  perform := obeys_perform
  write _ := obeys_modify _
  item _ _ := obeys_look _
  enterLine _ := obeys_modify _
  bindName _ _ := obeys_modify _
  boundary := obeys_boundary
  turns {turn turn'} _ h := turns_congr (fun x _ => x.Obeys) obeys_pure Obeys.bind
    (obeys_interrupt nofun) turn turn' h limit 0
  inFrame frame _ _ h := obeys_inFrame frame h

end Evaluation

/-- A run ends as `aborted` at once if its hook answers `abort`, and in no other case. -/
theorem Program.run_obeys (p : Program) (limit : Nat) :
    (p.run limit).Obeys fun r => r.1 = .aborted := by
  refine (body_rel (Evaluation.obeys_congruence limit) p.body Machine.start).bind
    (fun (r, m) hr => ?_) fun (r, m) hr => .ended ?_
  · subst hr; exact ⟨_, rfl, rfl⟩
  · match r with
    | .ok _ => nofun
    | .error (.raised _) => nofun
    | .error .unfinished => nofun
    | .error .aborted => exact absurd rfl hr

end Stepper
