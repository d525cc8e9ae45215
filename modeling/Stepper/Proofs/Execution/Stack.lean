import Stepper.Proofs.Execution.Hooks

/-!
# The discipline of the call stack

* `Execution.Always`: what holds at every pause of an execution and at its end, whatever the replies
  are.
* `CallStack.Undisturbed`, `CallStack.OnlyCurrent`: how much of a stack is left as it was: all but
  the global bindings, or all but those and the innermost frame.
* `Evaluation.eval_undisturbed`, `Evaluation.exec_onlyCurrent`: expressions do the former and
  statements the latter, and neither pauses on a stack that has grown by more than the calls that
  are left.
* `callByDepth`: calls that look at the stack to see whether there are calls left. They are the same
  (`Program.run_eq_runByDepth`), so no frame is entered on a full stack.
* `Program.call_stack_discipline`: what all this means for the runs of a program.
-/

namespace Stepper

/-! ## What always holds -/

/-- The property `P` holds of every pause and `Q` of the result, whatever the replies are. -/
inductive Execution.Always (P : Pause → Prop) (Q : α → Prop) : Execution α → Prop
  | ended {a : α} : Q a → Always P Q (.ended a)
  | paused {p : Pause} {resume : Reply → Execution α} :
      P p → (∀ reply, Always P Q (resume reply)) → Always P Q (.paused p resume)

namespace Execution.Always

variable {P P' : Pause → Prop} {Q Q' : α → Prop} {x : Execution α}

theorem mono (h : x.Always P Q) (hP : ∀ p, P p → P' p) (hQ : ∀ a, Q a → Q' a) :
    x.Always P' Q' := by
  induction h with
  | ended ha => exact .ended (hQ _ ha)
  | paused hp _ ih => exact .paused (hP _ hp) ih

theorem bind {f : α → Execution β} {Q' : β → Prop} (h : x.Always P Q)
    (hf : ∀ a, Q a → (f a).Always P Q') : (x.bind f).Always P Q' := by
  induction h with
  | ended ha => exact hf _ ha
  | paused hp _ ih => exact .paused hp ih

/-- What follows `x` only has to be the same after the results that `Q` allows. -/
theorem bind_congr {f g : α → Execution β} (h : x.Always P Q) (hfg : ∀ a, Q a → f a = g a) :
    x.bind f = x.bind g := by
  induction h with
  | ended ha => exact hfg _ ha
  | paused _ _ ih =>
    have hresume : _ = _ := funext ih
    simp only [Execution.bind, hresume]

variable {hook : Pause → StateM σ Reply} {s : σ}

/-- Whatever the `hook` is, `Q` holds of the result. -/
theorem drive (h : x.Always P Q) : Q (x.drive hook s).1 := by
  induction h generalizing s with
  | ended ha => exact ha
  | paused _ _ ih => exact ih _

/-- Whatever the `hook` is, `P` holds of the pauses at which it is asked. -/
theorem history (h : x.Always P Q) : ∀ c ∈ x.history hook s, P c.1 := by
  induction h generalizing s with
  | ended => simp
  | paused hp _ ih =>
    rw [history_paused]
    simp only [List.mem_cons, forall_eq_or_imp]
    exact ⟨hp, ih _⟩

end Execution.Always

/-! ## What is left of a stack -/

namespace CallStack

/-- All frames of `s` are as they were in `s'`, but the program's own may have other bindings. -/
structure Undisturbed (s s' : CallStack) : Prop where
  calls : s'.calls = s.calls
  globals : s'.globals = { s.globals with bindings := s'.globals.bindings }

/-- All frames of `s` but the innermost one are as they were in `s'`, but the program's own may have
other bindings. The innermost frame is still that of the same call. -/
structure OnlyCurrent (s s' : CallStack) : Prop where
  depth : s'.depth = s.depth
  callers : s'.calls.tail = s.calls.tail
  current : s'.current =
    { s.current with line := s'.current.line, bindings := s'.current.bindings }
  globals : s.calls ≠ [] → s'.globals = { s.globals with bindings := s'.globals.bindings }

variable {s s' s'' : CallStack}

theorem Undisturbed.rfl : s.Undisturbed s :=
  ⟨Eq.refl _, Eq.refl _⟩

theorem Undisturbed.trans (h : s.Undisturbed s') (h' : s'.Undisturbed s'') :
    s.Undisturbed s'' := by
  refine ⟨h'.calls.trans h.calls, ?_⟩
  rw [h'.globals, h.globals]

theorem Undisturbed.depth (h : s.Undisturbed s') : s'.depth = s.depth :=
  congrArg List.length h.calls

/-- The innermost frame is the same but for its bindings, which differ only if it is the program's
own. -/
theorem Undisturbed.current (h : s.Undisturbed s') :
    s'.current = { s.current with bindings := s'.current.bindings } := by
  unfold CallStack.current
  rw [h.calls]
  cases s.calls with
  | nil => exact h.globals
  | cons top rest => rfl

theorem Undisturbed.onlyCurrent (h : s.Undisturbed s') : s.OnlyCurrent s' where
  depth := h.depth
  callers := congrArg List.tail h.calls
  current := by rw [h.current]
  globals _ := h.globals

theorem OnlyCurrent.trans (h : s.OnlyCurrent s') (h' : s'.OnlyCurrent s'') :
    s.OnlyCurrent s'' := by
  refine ⟨h'.depth.trans h.depth, h'.callers.trans h.callers, ?_, fun hs => ?_⟩
  · rw [h'.current, h.current]
  · have hs' : s'.calls ≠ [] := by
      intro hnil
      have hdepth : s'.calls.length = s.calls.length := h.depth
      rw [hnil] at hdepth
      exact hs (List.length_eq_zero_iff.1 hdepth.symm)
    rw [h'.globals hs', h.globals hs]

/-- The innermost frame comes to a line, or gets a binding: `f` changes nothing else. -/
theorem onlyCurrent_modifyCurrent {f : Frame → Frame}
    (hf : ∀ g, f g = { g with line := (f g).line, bindings := (f g).bindings }) :
    s.OnlyCurrent (s.modifyCurrent f) := by
  obtain ⟨globals, calls⟩ := s
  cases calls with
  | nil => exact ⟨rfl, rfl, hf globals, fun h => absurd rfl h⟩
  | cons top rest => exact ⟨rfl, rfl, hf top, fun _ => rfl⟩

theorem undisturbed_modifyGlobals (name : String) (value : Value) :
    s.Undisturbed (s.modifyGlobals (·.set name value)) :=
  ⟨rfl, rfl⟩

/-- The `frame` of a call is there until it is left. -/
theorem OnlyCurrent.calls_ne_nil {frame : Frame} (h : (s.push frame).OnlyCurrent s') :
    s'.calls ≠ [] := by
  have hdepth : s'.calls.length = s.calls.length + 1 := h.depth
  intro hnil
  rw [hnil] at hdepth
  simp at hdepth

/-- A call only changes its own `frame`, so nothing is left of it but global bindings. -/
theorem OnlyCurrent.pop {frame : Frame} (h : (s.push frame).OnlyCurrent s') :
    s.Undisturbed s'.pop :=
  ⟨h.callers, h.globals (List.cons_ne_nil _ _)⟩

end CallStack

/-! ## Expressions and statements -/

open Watch Manner

namespace Evaluation

/-- What can be said of stacks for one act after another: `K` holds of acts that do nothing, is
transitive, and tells how many frames there are. -/
structure Stacking (K : CallStack → CallStack → Prop) : Prop where
  rfl {s : CallStack} : K s s
  trans {s s' s'' : CallStack} : K s s' → K s' s'' → K s s''
  depth {s s' : CallStack} : K s s' → s'.depth = s.depth

theorem stacking_undisturbed : Stacking CallStack.Undisturbed :=
  ⟨.rfl, .trans, CallStack.Undisturbed.depth⟩

theorem stacking_onlyCurrent : Stacking CallStack.OnlyCurrent :=
  ⟨CallStack.Undisturbed.rfl.onlyCurrent, .trans, CallStack.OnlyCurrent.depth⟩

/-- An evaluation after which `K` holds of the stacks before and after it, and that never pauses
with more than `n` calls more than there were. -/
def Keeps (K : CallStack → CallStack → Prop) (n : Nat) (x : Evaluation α) : Prop :=
  ∀ m, (x m).Always (fun p => p.machine.stack.depth ≤ m.stack.depth + n)
    fun r => K m.stack r.2.stack

section Keeps

variable {K : CallStack → CallStack → Prop} {n : Nat}

theorem keeps_bind (hK : Stacking K) {x : Evaluation α} {f : α → Evaluation β} (hx : Keeps K n x)
    (hf : ∀ a, Keeps K n (f a)) : Keeps K n (x >>= f) := by
  intro m
  refine (hx m).bind fun (r, m₁) hm₁ => ?_
  cases r with
  | error i => exact .ended hm₁
  | ok a =>
    have hdepth := hK.depth hm₁
    refine (hf a m₁).mono (fun p hp => ?_) fun r hr => hK.trans hm₁ hr
    rw [← hdepth]
    exact hp

/-- Acts that leave the frames alone keep every `K`. -/
theorem keeps_of_ended (hK : Stacking K) {x : Evaluation α}
    (h : ∀ m, ∃ r m', x m = .ended (r, m') ∧ m'.stack = m.stack) : Keeps K n x := by
  intro m
  obtain ⟨r, m', hx, hm'⟩ := h m
  rw [hx]
  refine .ended ?_
  rw [hm']
  exact hK.rfl

theorem keeps_modify {f : Machine → Machine} (hf : ∀ m, K m.stack (f m).stack) :
    Keeps K n (modify f) :=
  fun m => .ended (hf m)

theorem keeps_perform (hK : Stacking K) (op : Operation α) (loc : Location) :
    Keeps K n (perform op loc) := by
  refine keeps_of_ended hK fun m => ?_
  unfold perform
  split
  · exact ⟨_, _, rfl, rfl⟩
  · exact ⟨_, _, rfl, rfl⟩

theorem keeps_boundary (hK : Stacking K) (loc : Location) : Keeps K n (boundary loc) := by
  intro m
  refine .paused (Nat.le_add_right _ _) fun reply => ?_
  dsimp only
  split
  · exact .ended hK.rfl
  · exact .ended hK.rfl
  · exact .ended hK.rfl

theorem keeps_congruence (hK : Stacking K) (n : Nat) : Congruence (fun x _ => Keeps K n x) where
  pure _ := keeps_of_ended hK fun _ => ⟨_, _, rfl, rfl⟩
  bind := keeps_bind hK
  raise _ _ := keeps_of_ended hK fun _ => ⟨_, _, rfl, rfl⟩
  load _ := keeps_of_ended hK fun _ => ⟨_, _, rfl, rfl⟩
  truth _ := keeps_of_ended hK fun _ => ⟨_, _, rfl, rfl⟩
  perform := keeps_perform hK
  write _ := keeps_of_ended hK fun _ => ⟨_, _, rfl, rfl⟩

end Keeps

theorem onlyCurrent_bind (m : Machine) (name : String) (value : Value) :
    m.stack.OnlyCurrent (m.bind name value).stack := by
  rw [bind_eq]
  dsimp only
  split
  · exact CallStack.onlyCurrent_modifyCurrent fun g => rfl
  · exact (CallStack.undisturbed_modifyGlobals name value).onlyCurrent

theorem onlyCurrent_stmtCongruence (limit n : Nat) :
    StmtCongruence (fun x _ => Keeps CallStack.OnlyCurrent n x) limit limit where
  toCongruence := keeps_congruence stacking_onlyCurrent n
  item _ _ := keeps_of_ended stacking_onlyCurrent fun _ => ⟨_, _, rfl, rfl⟩
  enterLine loc := keeps_modify fun _ =>
    CallStack.onlyCurrent_modifyCurrent (f := fun g => { g with line := loc.line }) fun _ => rfl
  bindName name value := keeps_modify fun m => onlyCurrent_bind m name value
  boundary := keeps_boundary stacking_onlyCurrent
  turns {turn turn'} _ h := turns_congr (fun x _ => Keeps CallStack.OnlyCurrent n x)
    (fun _ => keeps_of_ended stacking_onlyCurrent fun _ => ⟨_, _, rfl, rfl⟩)
    (keeps_bind stacking_onlyCurrent)
    (keeps_of_ended stacking_onlyCurrent fun _ => ⟨_, _, rfl, rfl⟩) turn turn' h limit 0

/-- What is a change of the innermost frame in the `body` of a call is none in the caller. -/
theorem keeps_inFrame (frame : Frame) {n : Nat} {body : Evaluation α}
    (h : Keeps CallStack.OnlyCurrent n body) :
    Keeps CallStack.Undisturbed (n + 1) (inFrame frame body) := by
  intro m
  have hbody := h (m.push frame)
  have hdepth : (m.push frame).stack.depth = m.stack.depth + 1 := rfl
  refine (hbody.mono (fun p hp => ?_) fun r hr => hr).bind fun (r, m₁) hm₁ => ?_
  · rw [hdepth] at hp
    omega
  · cases r with
    | ok a => exact .ended (CallStack.OnlyCurrent.pop hm₁)
    | error i => exact .ended (CallStack.OnlyCurrent.pop hm₁)

theorem Keeps.onlyCurrent {n : Nat} {x : Evaluation α} (h : Keeps CallStack.Undisturbed n x) :
    Keeps CallStack.OnlyCurrent n x :=
  fun m => (h m).mono (fun _ hp => hp) fun _ hr => hr.onlyCurrent

section Statements

variable {call : Caller} {n : Nat}

theorem exec_onlyCurrent (hexpr : ∀ e : Expr, Keeps CallStack.OnlyCurrent n (e.eval call))
    (limit : Nat) (st : Stmt) : Keeps CallStack.OnlyCurrent n (st.exec call limit) :=
  @Stmt.exec_rel _ call call limit limit (onlyCurrent_stmtCongruence limit n) hexpr st

theorem execBlock_onlyCurrent (hexpr : ∀ e : Expr, Keeps CallStack.OnlyCurrent n (e.eval call))
    (limit : Nat) (body : List Stmt) : Keeps CallStack.OnlyCurrent n (execBlock call limit body) :=
  @execBlock_rel _ call call limit limit (onlyCurrent_stmtCongruence limit n) hexpr body

end Statements

/-- With `left` calls left, a call disturbs no frame, by induction on `left`. -/
theorem callWithin_undisturbed (limit left : Nat) :
    Caller.Rel (fun x _ => Keeps CallStack.Undisturbed left x) (callWithin limit left)
      (callWithin limit left) := by
  induction left with
  | zero => exact fun _ _ _ _ => (keeps_congruence stacking_undisturbed 0).raise _ _
  | succ left ih =>
    intro f args keywords loc
    have hK := keeps_congruence stacking_undisturbed (left + 1)
    simp only [callIn, watch_plain, inFrame_plain, before_silent]
    cases f.bindArguments args keywords with
    | error fault => exact hK.raise fault loc
    | ok bindings =>
      have hexpr : ∀ e : Expr, Keeps CallStack.OnlyCurrent left (e.eval (callWithin limit left)) :=
        fun e => (e.eval_rel (keeps_congruence stacking_undisturbed left) ih).onlyCurrent
      have hbody := execBlock_onlyCurrent hexpr limit f.body
      refine keeps_bind stacking_undisturbed (keeps_inFrame _ hbody) fun flow => ?_
      cases flow with
      | giveBack v => exact hK.pure v
      | normal | breakLoop | continueLoop => exact hK.pure Value.none

theorem eval_undisturbed (e : Expr) (limit left : Nat) :
    Keeps CallStack.Undisturbed left (e.eval (callWithin limit left)) :=
  e.eval_rel (keeps_congruence stacking_undisturbed left) (callWithin_undisturbed limit left)

end Evaluation

/-! ## Calls that look at the stack -/

open Evaluation

/-- How functions are called where the stack itself tells whether there are calls left. The `fuel`
only bounds how deep this definition looks; `spent` is what is done beyond it. -/
def callByDepth (spent : Caller) (limit : Nat) : Nat → Caller
  | 0 => spent
  | fuel + 1 => fun f args keywords loc m =>
    if callLimit ≤ m.stack.depth then raise .tooManyCalls loc m
    else
      match f.bindArguments args keywords with
      | .error fault => raise fault loc m
      | .ok bindings =>
        let body := execBlock (callByDepth spent limit fuel) limit f.body
        (inFrame (.ofCall f bindings) body >>= fun flow =>
          match flow with
          | .giveBack v => pure v
          | _ => pure .none) m

/-- The execution of `p` whose calls look at the stack, with more fuel than there may be calls. -/
def Program.runByDepth (p : Program) (spent : Caller) (limit : Nat) :
    Execution (Outcome × Machine) :=
  (execBlock (callByDepth spent limit (callLimit + 1)) limit p.body Machine.start).bind
    fun (result, m) => .ended (Outcome.of result m, m)

namespace Evaluation

/-- The evaluations `x` and `x'` are the same wherever `d` calls are active, and leave as many. -/
def SameAt (d : Nat) (x x' : Evaluation α) : Prop :=
  ∀ m, m.stack.depth = d →
    x m = x' m ∧ (x m).Always (fun _ => True) fun r => r.2.stack.depth = d

section SameAt

variable {d : Nat}

theorem sameAt_of_keeps {K : CallStack → CallStack → Prop} {n : Nat} (hK : Stacking K)
    {x : Evaluation α} (h : Keeps K n x) : SameAt d x x := by
  intro m hm
  exact ⟨rfl, (h m).mono (fun _ _ => trivial) fun r hr => (hK.depth hr).trans hm⟩

theorem SameAt.bind {x x' : Evaluation α} {f f' : α → Evaluation β} (hx : SameAt d x x')
    (hf : ∀ a, SameAt d (f a) (f' a)) : SameAt d (x >>= f) (x' >>= f') := by
  intro m hm
  obtain ⟨heq, halways⟩ := hx m hm
  refine ⟨?_, halways.bind fun (r, m₁) hm₁ => ?_⟩
  · change (x m).bind _ = (x' m).bind _
    rw [← heq]
    refine halways.bind_congr fun (r, m₁) hm₁ => ?_
    cases r with
    | ok a => exact (hf a m₁ hm₁).1
    | error i => rfl
  · cases r with
    | ok a => exact (hf a m₁ hm₁).2
    | error i => exact .ended hm₁

theorem sameAt_inFrame (frame : Frame) {body body' : Evaluation α}
    (h : SameAt (d + 1) body body') : SameAt d (inFrame frame body) (inFrame frame body') := by
  intro m hm
  have hdepth : (m.push frame).stack.depth = d + 1 := congrArg (· + 1) hm
  obtain ⟨heq, halways⟩ := h (m.push frame) hdepth
  refine ⟨?_, halways.bind fun (r, m₁) hm₁ => ?_⟩
  · change (body (m.push frame)).bind _ = (body' (m.push frame)).bind _
    rw [heq]
  · have hpop : m₁.pop.stack.depth = d := by
      change m₁.stack.calls.tail.length = d
      have hlength : m₁.stack.calls.length = d + 1 := hm₁
      rw [List.length_tail, hlength]
      rfl
    cases r with
    | ok a => exact .ended hpop
    | error i => exact .ended hpop

/-- Acts are the same as themselves, and none of them enters a frame or leaves one, so `d` stays. -/
theorem sameAt_stmtCongruence (limit : Nat) : StmtCongruence (SameAt d) limit limit := by
  have hacts := onlyCurrent_stmtCongruence limit 0
  have hsame : ∀ {α : Type} {x : Evaluation α}, Keeps CallStack.OnlyCurrent 0 x → SameAt d x x :=
    sameAt_of_keeps stacking_onlyCurrent
  exact {
    pure := fun a => hsame (hacts.pure a)
    bind := SameAt.bind
    raise := fun fault loc => hsame (hacts.raise fault loc)
    load := fun name => hsame (hacts.load name)
    truth := fun v => hsame (hacts.truth v)
    perform := fun op loc => hsame (hacts.perform op loc)
    write := fun text => hsame (hacts.write text)
    item := fun walk i => hsame (hacts.item walk i)
    enterLine := fun loc => hsame (hacts.enterLine loc)
    bindName := fun name value => hsame (hacts.bindName name value)
    boundary := fun loc => hsame (hacts.boundary loc)
    turns := fun _ h => turns_congr (SameAt d) (fun _ _ hm => ⟨rfl, .ended hm⟩) SameAt.bind
      (fun _ hm => ⟨rfl, .ended hm⟩) _ _ h limit 0 }

/-- The number of calls that are left and the depth of the stack tell the same,
`d + left = callLimit`, by induction on `left`: it drops by one whenever a frame is entered. -/
theorem callWithin_sameAt (spent : Caller) (limit : Nat) {left d : Nat}
    (hd : d + left = callLimit) :
    Caller.Rel (SameAt d) (callWithin limit left) (callByDepth spent limit (left + 1)) := by
  induction left generalizing d with
  | zero =>
    intro f args keywords loc m hm
    have hfull : callLimit ≤ m.stack.depth := by omega
    refine ⟨?_, .ended hm⟩
    simp only [callIn, callByDepth, if_pos hfull]
  | succ left ih =>
    intro f args keywords loc m hm
    have hroom : ¬ callLimit ≤ m.stack.depth := by omega
    simp only [callIn, watch_plain, inFrame_plain, before_silent, callByDepth, if_neg hroom]
    cases f.bindArguments args keywords with
    | error fault => exact ⟨rfl, .ended hm⟩
    | ok bindings =>
      -- The body is one frame deeper, with one call less to go.
      have hcall := ih (d := d + 1) (by omega)
      have hexpr : ∀ e : Expr, SameAt (d + 1) (e.eval (callWithin limit left))
          (e.eval (callByDepth spent limit (left + 1))) :=
        fun e => e.eval_rel (sameAt_stmtCongruence limit).toCongruence hcall
      have hbody := execBlock_rel (sameAt_stmtCongruence limit) hexpr f.body
      refine (sameAt_inFrame (.ofCall f bindings) hbody).bind (fun flow => ?_) m hm
      cases flow with
      | giveBack v => exact (sameAt_stmtCongruence limit).pure v
      | normal | breakLoop | continueLoop => exact (sameAt_stmtCongruence limit).pure Value.none

end SameAt

end Evaluation

namespace Program

/-- Whatever `spent` would do on a stack that is more than full, it is never done. -/
theorem run_eq_runByDepth (p : Program) (spent : Caller) (limit : Nat) :
    p.run limit = p.runByDepth spent limit := by
  have hcall := callWithin_sameAt spent limit (Nat.zero_add callLimit)
  have hbody := execBlock_rel (sameAt_stmtCongruence limit)
    (fun e => e.eval_rel (sameAt_stmtCongruence limit).toCongruence hcall) p.body
  rw [run, runByDepth, (hbody Machine.start rfl).1]

/-- A run never pauses with more than `callLimit` active calls, and it leaves none. -/
theorem run_always (p : Program) (limit : Nat) :
    (p.run limit).Always (fun pause => pause.machine.stack.depth ≤ callLimit)
      fun r => r.2.stack.calls = [] := by
  have hbody := execBlock_onlyCurrent
    (fun e => (eval_undisturbed e limit callLimit).onlyCurrent) limit p.body Machine.start
  have hstart : Machine.start.stack.depth = 0 := rfl
  refine (hbody.mono (fun pause hp => ?_) fun r hr => hr).bind fun (r, m) hm => .ended ?_
  · omega
  · exact List.length_eq_zero_iff.1 hm.depth

/-- Whatever the `hook` replies: evaluating an expression `e` leaves all frames as they were but for
the bindings of the program's own, and the innermost one at its line (`Undisturbed`); executing a
statement leaves all frames but the innermost one so (`OnlyCurrent`); no more calls than `callLimit`
are active, neither at a pause nor at any other time, as `runByDepth` enters a frame only where the
stack has room for it; and a run that has ended has left all calls. -/
theorem call_stack_discipline (p : Program) (limit : Nat) (hook : Pause → StateM σ Reply) (s : σ) :
    (∀ (e : Expr) (left : Nat) (m : Machine),
      let m' := ((e.eval (callWithin limit left) m).drive hook s).1.2
      m'.stack.depth = m.stack.depth ∧ m'.frame.line = m.frame.line ∧
        m'.stack.calls = m.stack.calls ∧ m.stack.Undisturbed m'.stack) ∧
    (∀ (st : Stmt) (left : Nat) (m : Machine),
      m.stack.OnlyCurrent ((st.exec (callWithin limit left) limit m).drive hook s).1.2.stack) ∧
    (∀ c ∈ (p.run limit).history hook s, c.1.machine.stack.depth ≤ 64) ∧
    (∀ spent, p.run limit = p.runByDepth spent limit) ∧
    ((p.run limit).drive hook s).1.2.stack.calls = [] := by
  refine ⟨fun e left m => ?_, fun st left m => ?_, (p.run_always limit).history,
    fun spent => p.run_eq_runByDepth spent limit, (p.run_always limit).drive⟩
  · intro m'
    have h : m.stack.Undisturbed m'.stack := (eval_undisturbed e limit left m).drive
    have hline : m'.frame.line = m.frame.line := by
      rw [Machine.frame, h.current]
      rfl
    exact ⟨h.depth, hline, h.calls, h⟩
  · have hexpr : ∀ e : Expr, Keeps CallStack.OnlyCurrent left (e.eval (callWithin limit left)) :=
      fun e => (eval_undisturbed e limit left).onlyCurrent
    exact (exec_onlyCurrent hexpr limit st m).drive

/-- A program that pauses in a call of `f`, and has left it when it has ended. -/
theorem call_stack_discipline_call :
    let f : Function := ⟨"f", [], [.pass ⟨2, 3⟩], [], ⟨1, 1⟩⟩
    let p : Program := ⟨[.define f, .expr (.call (.name "f" ⟨3, 1⟩) [] [] ⟨3, 2⟩) ⟨3, 1⟩],
      ["def f():", "  pass", "f()"]⟩
    ∃ c ∈ (p.run 2).history watching (), c.1.machine.stack.depth = 1 ∧
      c.1.machine.stack.depth ≤ 64 ∧ ((p.run 2).drive watching ()).1.2.stack.calls = [] := by
  intro f p
  have hdepths : ((p.run 2).history watching ()).map (·.1.machine.stack.depth) = [0, 1, 0] := by
    decide +kernel
  have hmem : 1 ∈ ((p.run 2).history watching ()).map (·.1.machine.stack.depth) := by
    rw [hdepths]
    decide
  obtain ⟨c, hc, hdepth⟩ := List.mem_map.1 hmem
  obtain ⟨-, -, hpauses, -, hend⟩ := call_stack_discipline p 2 watching ()
  exact ⟨c, hc, hdepth, hpauses c hc, hend⟩

end Program

end Stepper
