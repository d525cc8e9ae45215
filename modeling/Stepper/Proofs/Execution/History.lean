import Mathlib.Data.List.Infix
import Stepper.Proofs.Execution.Abort
import Stepper.Proofs.Execution.InStep
import Stepper.Proofs.Execution.TurnLimit

/-!
# What a hook is asked

* `Execution.history`: the pauses at which a hook is asked and its replies, in order, recorded while
  it drives an execution.
* `Execution.Obeys.length_of_abort`: a reply that aborts is the last one.
* `Execution.Extends.prefix_history`: an execution that is cut off has a prefix of the history.
* `Execution.InStep.history_congr`: two executions in step have the same history, seen from outside,
  up to the first reply that aborts.
-/

namespace Stepper

/-- What can be seen of a pause: its `line`, the frame that has paused with all that its names lead
to in the `store`, and what has been printed. -/
structure Observation where
  line : Nat
  function : String
  bindings : List (String × Value)
  store : Store
  transcript : String

/-- What can be seen of `p`. -/
def Pause.observation (p : Pause) : Observation where
  line := p.line
  function := p.machine.frame.name
  bindings := p.machine.frame.bindings
  store := p.machine.store
  transcript := p.machine.output.transcript

/-- The `hook`, with a record of its pauses and replies kept beside its state. -/
def recording (hook : Pause → StateM σ Reply) :
    Pause → StateM (σ × List (Pause × Reply)) Reply := fun p t =>
  ((hook p t.1).1, (hook p t.1).2, t.2 ++ [(p, (hook p t.1).1)])

namespace Execution

/-- The pauses at which the `hook` is asked, each with its reply, in order. -/
def history (x : Execution α) (hook : Pause → StateM σ Reply) (s : σ) : List (Pause × Reply) :=
  (x.drive (recording hook) (s, [])).2.2

/-- No reply in the history of `x` is `abort`. -/
def NeverAborts (x : Execution α) (hook : Pause → StateM σ Reply) (s : σ) : Prop :=
  ∀ c ∈ x.history hook s, c.2.answer ≠ .abort

section Basic

variable (hook : Pause → StateM σ Reply)

theorem drive_ended (a : α) (s : σ) : (ended a).drive hook s = (a, s) := rfl

theorem drive_paused (p : Pause) (resume : Reply → Execution α) (s : σ) :
    (paused p resume).drive hook s = (resume (hook p s).1).drive hook (hook p s).2 := rfl

/-- A `record` changes nothing, and what is recorded is added at its end. -/
theorem drive_recording (x : Execution α) (s : σ) (record : List (Pause × Reply)) :
    x.drive (recording hook) (s, record) =
      ((x.drive hook s).1, (x.drive hook s).2, record ++ x.history hook s) := by
  induction x generalizing s record with
  | ended a => simp [history, drive_ended]
  | paused p resume ih =>
    simp only [history, drive_paused, recording]
    rw [ih, ih _ _ ([] ++ _)]
    simp

@[simp] theorem history_ended (a : α) (s : σ) : (ended a).history hook s = [] := rfl

@[simp] theorem history_paused (p : Pause) (resume : Reply → Execution α) (s : σ) :
    (paused p resume).history hook s =
      (p, (hook p s).1) :: (resume (hook p s).1).history hook (hook p s).2 := by
  simp only [history, drive_paused, recording]
  rw [drive_recording]
  simp [history]

/-- A reply in a history is one that the `hook` has given, in some state `t`. -/
theorem exists_of_mem_history {x : Execution α} {hook : Pause → StateM σ Reply} {s : σ}
    {c : Pause × Reply} (h : c ∈ x.history hook s) : ∃ t, (hook c.1 t).1 = c.2 := by
  induction x generalizing s with
  | ended a => simp at h
  | paused p resume ih =>
    rw [history_paused, List.mem_cons] at h
    rcases h with rfl | h
    · exact ⟨s, rfl⟩
    · exact ih _ h

end Basic

/-! ## Histories and aborts -/

namespace Obeys

variable {A : α → Prop} {x : Execution α} {hook : Pause → StateM σ Reply}

/-- A reply `i` that aborts is the last one, and the execution counts as aborted (`A`). -/
theorem length_of_abort (h : x.Obeys A) {s : σ} {i : Nat} {c : Pause × Reply}
    (hc : (x.history hook s)[i]? = some c) (habort : c.2.answer = .abort) :
    (x.history hook s).length = i + 1 ∧ A (x.drive hook s).1 := by
  induction h generalizing s i with
  | ended => simp at hc
  | @paused p resume hstop _ ih =>
    rw [history_paused] at hc ⊢
    cases i with
    | zero =>
      obtain rfl : (p, (hook p s).1) = c := by simpa using hc
      obtain ⟨a, ha, hresume⟩ := hstop _ habort
      rw [drive_paused, hresume]
      exact ⟨rfl, ha⟩
    | succ i =>
      by_cases hr : (hook p s).1.answer = .abort
      · obtain ⟨a, -, hresume⟩ := hstop _ hr
        rw [hresume] at hc
        simp at hc
      · obtain ⟨hlength, ha⟩ := ih _ hr (by simpa using hc)
        exact ⟨by simp [hlength], ha⟩

/-- An execution that counts as aborted (`A`) has been told so by some reply `i`. -/
theorem exists_abort (h : x.Obeys A) {s : σ} (ha : A (x.drive hook s).1) :
    ∃ (i : Nat) (c : Pause × Reply), (x.history hook s)[i]? = some c ∧ c.2.answer = .abort := by
  induction h generalizing s with
  | ended hn => exact absurd ha hn
  | @paused p resume _ _ ih =>
    rw [history_paused]
    by_cases hr : (hook p s).1.answer = .abort
    · exact ⟨0, _, rfl, hr⟩
    · obtain ⟨i, c, hc, habort⟩ := ih _ hr ha
      exact ⟨i + 1, c, by simpa using hc, habort⟩

end Obeys

/-! ## Histories of executions that are cut off -/

namespace Extends

variable {C : α → Prop} {x y : Execution α} {n : Nat} {hook : Pause → StateM σ Reply}

/-- An execution `x` that is not cut off (`¬ C`) is the same with more turns, `y`. -/
theorem drive_eq (h : Extends C n x y) {s : σ} (hcut : ¬ C (x.drive hook s).1) :
    y.drive hook s = x.drive hook s := by
  induction h generalizing s with
  | cut ha => exact absurd ha hcut
  | ended => rfl
  | paused _ ih => exact ih _ hcut

theorem history_eq (h : Extends C n x y) {s : σ} (hcut : ¬ C (x.drive hook s).1) :
    y.history hook s = x.history hook s := by
  have hrec : ¬ C (x.drive (recording hook) (s, [])).1 := by rwa [drive_recording]
  rw [history, history, h.drive_eq hrec]

theorem prefix_history (h : Extends C n x y) (s : σ) :
    x.history hook s <+: y.history hook s := by
  induction h generalizing s with
  | cut => simp
  | ended => exact List.prefix_refl _
  | paused _ ih =>
    rw [history_paused, history_paused]
    exact (List.prefix_cons_inj _).2 (ih _ _)

/-- The histories of `x` and `y` agree below `n`, the pause before which nothing is cut off. -/
theorem history_getElem? (h : Extends C n x y) (s : σ) {i : Nat} (hi : i < n) :
    (x.history hook s)[i]? = (y.history hook s)[i]? := by
  induction h generalizing s i with
  | cut => omega
  | ended => rfl
  | paused _ ih =>
    rw [history_paused, history_paused]
    cases i with
    | zero => rfl
    | succ i => simpa using ih _ _ (by omega)

/-- An execution `x` that is cut off has paused at least `n` times. -/
theorem le_length_of_cut (h : Extends C n x y) {s : σ} (hcut : C (x.drive hook s).1) :
    n ≤ (x.history hook s).length := by
  induction h generalizing s with
  | cut => exact Nat.zero_le _
  | ended hn => exact absurd hcut hn
  | paused _ ih =>
    have := ih _ hcut
    rw [history_paused, List.length_cons]
    omega

end Extends

/-! ## Histories of executions in step -/

namespace InStep

variable {O : Output → Output → Prop} {Q : α → β → Prop} {x : Execution α} {y : Execution β}
  {hook : Pause → StateM σ Reply} {hook' : Pause → StateM τ Reply}

/-- Executions in step, `x` and `y`, show the same at pause `i` if no reply before it aborts, and if
outputs related by `O` have one transcript and stay related when they are trimmed. -/
theorem history_congr (h : InStep O Q x y) (hO : ∀ o o', O o o' → o.transcript = o'.transcript)
    (htrim : ∀ o o' (r r' : Reply), O o o' → O (r.trimmed o) (r'.trimmed o')) {s : σ} {t : τ}
    {i : Nat} (hx : ∀ j < i, ∀ c, (x.history hook s)[j]? = some c → c.2.answer ≠ .abort)
    (hy : ∀ j < i, ∀ c, (y.history hook' t)[j]? = some c → c.2.answer ≠ .abort) :
    ((x.history hook s)[i]?).map (·.1.observation) =
      ((y.history hook' t)[i]?).map (·.1.observation) := by
  induction h generalizing s t i with
  | ended => rfl
  | paused hline hm _ ih =>
    rw [history_paused] at hx
    rw [history_paused] at hy
    rw [history_paused, history_paused]
    cases i with
    | zero =>
      simp [Pause.observation, Machine.frame, hline, hm.store, hm.stack, hO _ _ hm.output]
    | succ i =>
      have hr := hx 0 (by omega) _ rfl
      have hr' := hy 0 (by omega) _ rfl
      -- Neither reply at this pause aborts, so both executions go on in step.
      simpa using ih _ _ hr hr' (htrim _ _ _ _ hm.output)
        (fun j hj c hc => hx (j + 1) (by omega) c (by simpa using hc))
        (fun j hj c hc => hy (j + 1) (by omega) c (by simpa using hc))

/-- Executions in step have results related by `Q` if no reply aborts. -/
theorem drive_congr (h : InStep O Q x y)
    (htrim : ∀ o o' (r r' : Reply), O o o' → O (r.trimmed o) (r'.trimmed o')) {s : σ} {t : τ}
    (hx : x.NeverAborts hook s) (hy : y.NeverAborts hook' t) :
    Q (x.drive hook s).1 (y.drive hook' t).1 := by
  induction h generalizing s t with
  | ended hab => exact hab
  | paused _ hm _ ih =>
    simp only [NeverAborts, history_paused, List.mem_cons, forall_eq_or_imp] at hx hy
    exact ih _ _ hx.1 hy.1 (htrim _ _ _ _ hm.output) hx.2 hy.2

end InStep

end Execution

end Stepper
