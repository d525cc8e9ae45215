import Stepper.Proofs.Execution.Congruence

/-!
# Two executions in step

A program never reads its output. So two executions of one program that are trimmed differently do
the same, as long as neither is aborted.

* `Machine.Alike`: two states with equal stores and frames, and related outputs.
* `Execution.InStep`: two executions pause at the same lines in alike states, whatever replies they
  get, as long as the replies leave the outputs related and abort neither.
* `Program.run_inStep`: a program is in step with itself, for every relation between outputs that
  printing keeps.
-/

namespace Stepper

/-- The output `o` after a reply that may have it trimmed. -/
def Reply.trimmed (reply : Reply) (o : Output) : Output :=
  reply.keep.elim o o.trim

/-- What `trim` takes from the window is still in the transcript. -/
@[simp] theorem Output.trim_transcript (o : Output) (keep : Nat) :
    (o.trim keep).transcript = o.transcript := by
  unfold Output.trim; split <;> rfl

@[simp] theorem Reply.trimmed_transcript (reply : Reply) (o : Output) :
    (reply.trimmed o).transcript = o.transcript := by
  unfold Reply.trimmed
  cases reply.keep with
  | none => rfl
  | some keep => exact o.trim_transcript keep

/-- The states `m` and `m'` differ only in their outputs, which are related by `O`. -/
structure Machine.Alike (O : Output → Output → Prop) (m m' : Machine) : Prop where
  store : m.store = m'.store
  stack : m.stack = m'.stack
  output : O m.output m'.output

/-- Two executions that pause at the same lines in states that are `Alike`, and end in results
related by `Q`, unless they are aborted. -/
inductive Execution.InStep (O : Output → Output → Prop) (Q : α → β → Prop) :
    Execution α → Execution β → Prop
  | ended {a : α} {b : β} : Q a b → InStep O Q (.ended a) (.ended b)
  | paused {p p' : Pause} {resume : Reply → Execution α} {resume' : Reply → Execution β} :
      p.line = p'.line → p.machine.Alike O p'.machine →
      (∀ reply reply', reply.answer ≠ .abort → reply'.answer ≠ .abort →
        O (reply.trimmed p.machine.output) (reply'.trimmed p'.machine.output) →
        InStep O Q (resume reply) (resume' reply')) →
      InStep O Q (.paused p resume) (.paused p' resume')

theorem Execution.InStep.bind {O : Output → Output → Prop} {x : Execution α} {y : Execution β}
    {f : α → Execution γ} {g : β → Execution δ} {Q : α → β → Prop} {Q' : γ → δ → Prop}
    (hxy : InStep O Q x y) (hfg : ∀ a b, Q a b → InStep O Q' (f a) (g b)) :
    InStep O Q' (x.bind f) (y.bind g) := by
  induction hxy with
  | ended hab => exact hfg _ _ hab
  | paused hline hm _ ih =>
    exact .paused hline hm fun reply reply' hr hr' ho => ih reply reply' hr hr' ho

/-- Equal results in states that are `Alike`. -/
def SameResult (O : Output → Output → Prop) (r r' : α × Machine) : Prop :=
  r.1 = r'.1 ∧ r.2.Alike O r'.2

namespace Evaluation

variable {O : Output → Output → Prop}

/-- The evaluations `x` and `x'` go in step from states that are `Alike`. -/
def InStep (O : Output → Output → Prop) (x x' : Evaluation α) : Prop :=
  ∀ m m', m.Alike O m' → (x m).InStep O (SameResult O) (x' m')

theorem InStep.bind {x x' : Evaluation α} {f f' : α → Evaluation β} (hx : InStep O x x')
    (hf : ∀ a, InStep O (f a) (f' a)) : InStep O (x >>= f) (x' >>= f') := by
  intro m m' hm
  refine Execution.InStep.bind (hx m m' hm) ?_
  rintro ⟨r, m₁⟩ ⟨r', m₁'⟩ ⟨rfl, hm₁⟩
  cases r with
  | ok a => exact hf a m₁ m₁' hm₁
  | error i => exact .ended ⟨rfl, hm₁⟩

/-- An evaluation that looks at a part `f` of the state that alike states share. -/
theorem inStep_look {f : Machine → α} (hf : ∀ m m', m.Alike O m' → f m = f m') :
    InStep O (look f) (look f) :=
  fun m m' hm => .ended ⟨by rw [hf m m' hm], hm⟩

theorem inStep_modify {f : Machine → Machine} (hf : ∀ m m', m.Alike O m' → (f m).Alike O (f m')) :
    InStep O (modify f) (modify f) :=
  fun m m' hm => .ended ⟨rfl, hf m m' hm⟩

theorem inStep_perform (op : Operation α) (loc : Location) :
    InStep O (perform op loc) (perform op loc) := by
  intro m m' hm
  unfold perform
  rw [← hm.store]
  split
  · exact .ended ⟨rfl, rfl, hm.stack, hm.output⟩
  · exact .ended ⟨rfl, rfl, hm.stack, hm.output⟩

theorem inStep_boundary (loc : Location) : InStep O (boundary loc) (boundary loc) := by
  refine fun m m' hm => .paused rfl hm fun reply reply' hr hr' ho => ?_
  have hm₁ : Machine.Alike O { m with output := reply.trimmed m.output }
      { m' with output := reply'.trimmed m'.output } := ⟨hm.store, hm.stack, ho⟩
  dsimp only
  split <;> split <;> first | exact .ended ⟨rfl, hm₁⟩ | contradiction

theorem alike_load {m m' : Machine} (h : m.Alike O m') (name : String) :
    m.load name = m'.load name := by
  rw [Machine.load, Machine.load, Machine.frame, Machine.frame, h.stack]

/-- Binding `name` changes the frames only. -/
theorem bind_eq (m : Machine) (name : String) (value : Value) :
    m.bind name value = { m with
      stack :=
        if m.frame.owns name then m.stack.modifyCurrent (·.set name value)
        else m.stack.modifyGlobals (·.set name value) } := by
  unfold Machine.bind; split <;> rfl

theorem alike_bind {m m' : Machine} (h : m.Alike O m') (name : String) (value : Value) :
    (m.bind name value).Alike O (m'.bind name value) := by
  rw [bind_eq, bind_eq]
  exact ⟨h.store, by rw [Machine.frame, Machine.frame, h.stack], h.output⟩

theorem inStep_inFrame (frame : Frame) {body body' : Evaluation α} (h : InStep O body body') :
    InStep O (inFrame frame body) (inFrame frame body') := by
  intro m m' hm
  refine (h (m.push frame) (m'.push frame) ⟨hm.store, ?_, hm.output⟩).bind ?_
  · simp only [Machine.push, hm.stack]
  rintro ⟨r, m₁⟩ ⟨r', ⟨store, stack, output⟩⟩ ⟨rfl, rfl, rfl, ho⟩
  cases r with
  | ok a => exact .ended ⟨rfl, rfl, rfl, ho⟩
  | error i => exact .ended ⟨rfl, rfl, rfl, ho⟩

theorem inStep_congruence (hO : ∀ o o' text, O o o' → O (o.write text) (o'.write text))
    (limit : Nat) : BlockCongruence (InStep O) limit limit where
  pure _ _ _ hm := .ended ⟨rfl, hm⟩
  bind := InStep.bind
  raise _ _ _ _ hm := .ended ⟨rfl, hm⟩
  load name := inStep_look fun _ _ hm => alike_load hm name
  truth v := inStep_look fun _ _ hm => by rw [hm.store]
  perform := inStep_perform
  write text := inStep_modify fun _ _ hm => ⟨hm.store, hm.stack, hO _ _ text hm.output⟩
  item walk i := inStep_look fun _ _ hm => by rw [hm.store]
  enterLine loc := inStep_modify fun _ _ hm =>
    ⟨hm.store, by simp only [Machine.enterLine, hm.stack], hm.output⟩
  bindName name value := inStep_modify fun _ _ hm => alike_bind hm name value
  boundary := inStep_boundary
  turns _ h := turns_congr (InStep O) (fun _ _ _ hm => .ended ⟨rfl, hm⟩) InStep.bind
    (fun _ _ hm => .ended ⟨rfl, hm⟩) _ _ h limit 0
  inFrame frame _ _ h := inStep_inFrame frame h

end Evaluation

/-- A program goes in step with itself, for a relation `O` between outputs that printing keeps. -/
theorem Program.run_inStep {O : Output → Output → Prop}
    (hO : ∀ o o' text, O o o' → O (o.write text) (o'.write text)) (hstart : O .empty .empty)
    (p : Program) (limit : Nat) :
    (p.run limit).InStep O (SameResult O) (p.run limit) := by
  refine (body_rel (Evaluation.inStep_congruence hO limit) p.body Machine.start Machine.start
    ⟨rfl, rfl, hstart⟩).bind ?_
  rintro ⟨r, m⟩ ⟨r', ⟨store, stack, output⟩⟩ ⟨rfl, rfl, rfl, ho⟩
  exact .ended ⟨rfl, rfl, rfl, ho⟩

end Stepper
