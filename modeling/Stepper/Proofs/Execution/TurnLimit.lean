import Stepper.Proofs.Execution.Congruence

/-!
# The limit on turns does not show

`Program.run` stops a loop that has made as many turns as it is allowed. Every turn pauses, so a
program that is allowed more turns pauses at the same places in the same states, and ends in the
same way unless it was cut off.

* `Execution.Extends`: an execution goes on where another one is cut off, and the other one is not
  cut off before it has paused a number of times.
* `Program.run_extends`: so does a program that is allowed more turns, and it is not cut off before
  it has paused as many times as its loops may turn.
-/

namespace Stepper

/-- The second execution goes on where the first is cut off (`Cut`), and is the same otherwise; the
first is not cut off before it has paused `n` times. -/
inductive Execution.Extends (Cut : α → Prop) : Nat → Execution α → Execution α → Prop
  | cut {a : α} {y : Execution α} : Cut a → Extends Cut 0 (.ended a) y
  | ended {n : Nat} {a : α} : ¬ Cut a → Extends Cut n (.ended a) (.ended a)
  | paused {n : Nat} {p : Pause} {resume resume' : Reply → Execution α} :
      (∀ reply, Extends Cut (n - 1) (resume reply) (resume' reply)) →
      Extends Cut n (.paused p resume) (.paused p resume')

theorem Execution.Extends.bind {x y : Execution α} {f g : α → Execution β} {C : α → Prop}
    {D : β → Prop} {n : Nat} (hxy : Extends C n x y) (hcut : ∀ a, C a → ∃ b, D b ∧ f a = .ended b)
    (hfg : ∀ a k, ¬ C a → k ≤ n → Extends D k (f a) (g a)) :
    Extends D n (x.bind f) (y.bind g) := by
  induction hxy with
  | cut ha =>
    obtain ⟨b, hb, hfa⟩ := hcut _ ha
    rw [Execution.bind, hfa]; exact .cut hb
  | ended ha => exact hfg _ _ ha (Nat.le_refl _)
  | paused _ ih => exact .paused fun reply => ih reply fun a k ha hk => hfg a k ha (by omega)

namespace Evaluation

/-- The evaluation `y` extends `x` from every state; `x` is cut off as `unfinished`. -/
def Extends (n : Nat) (x y : Evaluation α) : Prop :=
  ∀ m, (x m).Extends (fun r => r.1 = .error .unfinished) n (y m)

/-- An evaluation `x` that ends at once, and is not `unfinished`, extends itself by any `n`. -/
theorem extends_of_ended {n : Nat} {x : Evaluation α}
    (h : ∀ m, ∃ r m', x m = .ended (r, m') ∧ r ≠ .error .unfinished) : Extends n x x := by
  intro m
  obtain ⟨r, m', hx, hr⟩ := h m
  rw [hx]; exact .ended hr

theorem extends_bind {n : Nat} {x y : Evaluation α} {f g : α → Evaluation β} (hxy : Extends n x y)
    (hfg : ∀ a, ∀ k ≤ n, Extends k (f a) (g a)) : Extends n (x >>= f) (y >>= g) := by
  intro m
  refine (hxy m).bind (fun (r, m') hr => ?_) fun (r, m') k hr hk => ?_
  · subst hr; exact ⟨_, rfl, rfl⟩
  · cases r with
    | ok a => exact hfg a k hk m'
    | error i => exact .ended fun h => hr (by simpa using h)

theorem extends_perform {n : Nat} (op : Operation α) (loc : Location) :
    Extends n (perform op loc) (perform op loc) := by
  refine extends_of_ended fun m => ?_
  unfold perform
  split
  · exact ⟨_, _, rfl, nofun⟩
  · exact ⟨_, _, rfl, by simp⟩

theorem extends_boundary {n : Nat} (loc : Location) : Extends n (boundary loc) (boundary loc) := by
  refine fun m => .paused fun reply => ?_
  dsimp only
  split <;> exact .ended (by simp)

theorem extends_inFrame {n : Nat} (frame : Frame) {x y : Evaluation α} (h : Extends n x y) :
    Extends n (inFrame frame x) (inFrame frame y) := by
  intro m
  refine (h (m.push frame)).bind (fun (r, m') hr => ?_) fun (r, m') k hr _ => ?_
  · subst hr; exact ⟨_, rfl, rfl⟩
  · cases r with
    | ok a => exact .ended nofun
    | error i => exact .ended fun h => hr (by simpa [Interrupt.leave_eq_iff] using h)

/-- A loop that may turn `left` times is not cut off before it has paused `left` times: each turn is
`Productive`, so it pauses before the next one starts. -/
theorem extends_turns {turn turn' : Nat → Evaluation (Option Flow)} {limit : Nat}
    (hturn : ∀ i, Productive (turn i)) (h : ∀ i, ∀ n ≤ limit, Extends n (turn i) (turn' i))
    {left left' : Nat} (hlimit : left ≤ limit) (hleft : left ≤ left') :
    ∀ n ≤ left, ∀ i, Extends n (turns turn left i) (turns turn' left' i) := by
  -- On `left`: a turn that goes on has paused, so one pause less is owed by the turns after it.
  induction left generalizing left' with
  | zero =>
    intro n hn i m
    obtain rfl : n = 0 := by omega
    exact .cut rfl
  | succ left ih =>
    intro n hn i m
    obtain ⟨left', rfl⟩ : ∃ k, left' = k + 1 := ⟨left' - 1, by omega⟩
    have hprod := hturn i m
    have hxy := h i n (by omega) m
    change Execution.Extends _ n ((turn i m).bind _) ((turn' i m).bind _)
    generalize turn i m = x at hprod hxy
    generalize turn' i m = y at hxy
    cases hxy with
    | @cut a _ ha =>
      obtain ⟨r, m'⟩ := a
      obtain rfl : r = .error .unfinished := ha
      exact .cut rfl
    | @ended _ a ha =>
      obtain ⟨r, m'⟩ := a
      match r with
      -- A productive turn does not end without a flow unless it has paused.
      | .ok none => exact absurd rfl (hprod m')
      | .ok (some flow) => exact .ended nofun
      | .error i => exact .ended fun hi => ha (by simpa using hi)
    | paused hresume =>
      refine .paused fun reply => (hresume reply).bind (fun (r, m') hr => ?_)
        fun (r, m') k hr hk => ?_
      · subst hr; exact ⟨_, rfl, rfl⟩
      · match r with
        | .ok none => exact ih (by omega) (by omega) k (by omega) (i + 1) m'
        | .ok (some flow) => exact .ended nofun
        | .error i => exact .ended fun hi => hr (by simpa using hi)

theorem extends_congruence {limit limit' : Nat} (h : limit ≤ limit') :
    BlockCongruence (fun x y => ∀ n ≤ limit, Extends n x y) limit limit' where
  pure _ _ _ := extends_of_ended fun _ => ⟨_, _, rfl, nofun⟩
  bind hx hf n hn := extends_bind (hx n hn) fun a k hk => hf a k (by omega)
  raise _ _ _ _ := extends_of_ended fun _ => ⟨_, _, rfl, nofun⟩
  load _ _ _ := extends_of_ended fun _ => ⟨_, _, rfl, nofun⟩
  truth _ _ _ := extends_of_ended fun _ => ⟨_, _, rfl, nofun⟩
  perform op loc _ _ := extends_perform op loc
  write _ _ _ := extends_of_ended fun _ => ⟨_, _, rfl, nofun⟩
  item _ _ _ _ := extends_of_ended fun _ => ⟨_, _, rfl, nofun⟩
  enterLine _ _ _ := extends_of_ended fun _ => ⟨_, _, rfl, nofun⟩
  bindName _ _ _ _ := extends_of_ended fun _ => ⟨_, _, rfl, nofun⟩
  boundary loc _ _ := extends_boundary loc
  turns hprod hturn n hn := extends_turns hprod hturn (Nat.le_refl _) h n hn 0
  inFrame frame _ _ hbody n hn := extends_inFrame frame (hbody n hn)

end Evaluation

/-- A program that is allowed more turns, `limit'`, goes on where it was cut off at `limit`, and it
is not cut off before it has paused `limit` times. -/
theorem Program.run_extends (p : Program) {limit limit' n : Nat} (h : limit ≤ limit')
    (hn : n ≤ limit) : (p.run limit).Extends (fun r => r.1 = .unfinished) n (p.run limit') := by
  refine (body_rel (Evaluation.extends_congruence h) p.body n hn Machine.start).bind
    (fun (r, m) hr => ?_) fun (r, m) k hr _ => .ended ?_
  · subst hr; exact ⟨_, rfl, rfl⟩
  · match r with
    | .ok _ => nofun
    | .error (.raised _) => nofun
    | .error .aborted => nofun
    | .error .unfinished => exact absurd rfl hr

end Stepper
