import Stepper.Proofs.Execution.Still

/-!
# Tracebacks

An exception collects its traceback while it leaves the frames. Beside a run that stands still
(`Program.runStill`) it can be seen that these are the frames that were there when it arose, each at
the line of what it was executing.

* `Unwound`: what an exception has collected, against the frames that are still there where nothing
  has been left.
* `Evaluation.Beside`: two evaluations that go in step, one of which stands still if it is
  interrupted.
* `Stmt.exec_beside`, `callWithin_beside`: so do a statement and a call.
* `Program.traceback_exact`: so the traceback of a run that has raised an exception is the stack at
  the moment at which the exception arose.
-/

namespace Stepper

/-- The entry of `f` in a traceback: its name and its line. -/
def Frame.entry (f : Frame) : TraceEntry :=
  ⟨f.name, f.line⟩

namespace Traceback

/-- The last line of a report does not depend on `e.trace`, the frames that have been left. -/
theorem summary_ofException (e : Exception) :
    (ofException e).summary = (ofException ⟨e.fault, e.loc, []⟩).summary := by
  unfold summary
  rfl

/-- The frames that an exception has left, `t.trace`, are reported the outermost first. -/
theorem render_eq {t : Traceback} (h : t.trace ≠ []) (p : Program) :
    t.render p = "Traceback (most recent call last):\n" ++
      String.join (t.trace.reverse.map (entryText p)) ++ t.summary := by
  have hentries : t.entries = t.trace.reverse := by
    simp [entries, h]
  unfold render
  rw [hentries]

end Traceback

/-- The frames of `s` from the innermost to the program's own. -/
theorem CallStack.reverse_frames (s : CallStack) : s.frames.reverse = s.calls ++ [s.globals] := by
  rw [frames, List.reverse_cons, List.reverse_reverse]

/-! ## Executions in step -/

namespace Execution

@[simp] theorem bind_ended (x : Execution α) : x.bind ended = x := by
  induction x with
  | ended a => rfl
  | paused p resume ih =>
    have hresume : _ = _ := funext ih
    rw [Execution.bind, hresume]

theorem InStep.and_always {O : Output → Output → Prop} {Q : α → β → Prop} {P : Pause → Prop}
    {Q' : α → Prop} {x : Execution α} {y : Execution β} (h : InStep O Q x y) (hx : x.Always P Q') :
    InStep O (fun a b => Q a b ∧ Q' a) x y := by
  induction h with
  | ended hab =>
    cases hx with
    | ended ha => exact .ended ⟨hab, ha⟩
  | paused hline hm _ ih =>
    cases hx with
    | paused _ hresume =>
      exact .paused hline hm fun reply reply' hr hr' ho => ih reply reply' hr hr' ho (hresume reply)

/-- One `hook` drives two executions in step to results related by `Q`, if it never aborts. -/
theorem InStep.drive_same {Q : α → β → Prop} {x : Execution α} {y : Execution β}
    (h : InStep Eq Q x y) {hook : Pause → StateM σ Reply} {s : σ} (hx : x.NeverAborts hook s) :
    Q (x.drive hook s).1 (y.drive hook s).1 ∧ (x.drive hook s).2 = (y.drive hook s).2 := by
  induction h generalizing s with
  | ended hab => exact ⟨hab, rfl⟩
  | @paused p p' resume resume' hline hm _ ih =>
    obtain rfl : p = p' := by
      obtain ⟨line, store, stack, output⟩ := p
      obtain ⟨line', store', stack', output'⟩ := p'
      obtain ⟨rfl, rfl, rfl⟩ := hm
      obtain rfl : line = line' := hline
      rfl
    simp only [NeverAborts, history_paused, List.mem_cons, forall_eq_or_imp] at hx
    obtain ⟨hr, hrest⟩ := hx
    exact ih _ _ hr hr rfl hrest

end Execution

/-! ## Lines -/

namespace Machine

@[simp] theorem enterLine_enterLine (m : Machine) (k l : Nat) :
    (m.enterLine k).enterLine l = m.enterLine l := by
  obtain ⟨store, ⟨globals, calls⟩, output⟩ := m
  cases calls <;> rfl

@[simp] theorem frame_enterLine (m : Machine) (l : Nat) :
    (m.enterLine l).frame = { m.frame with line := l } := by
  obtain ⟨store, ⟨globals, calls⟩, output⟩ := m
  cases calls <;> rfl

/-- A frame that is at a line already stays as it is. -/
theorem enterLine_self (m : Machine) : m.enterLine m.frame.line = m := by
  obtain ⟨store, ⟨globals, calls⟩, output⟩ := m
  cases calls <;> rfl

/-- The line `l` of a frame that is left does not matter. -/
theorem pop_enterLine {m : Machine} (h : m.stack.calls ≠ []) (l : Nat) :
    (m.enterLine l).pop = m.pop := by
  obtain ⟨store, ⟨globals, calls⟩, output⟩ := m
  cases calls with
  | nil => exact absurd rfl h
  | cons top rest => rfl

/-- The same state, with the innermost frame at the line `l`. -/
def Here (l : Nat) (m m' : Machine) : Prop :=
  m = m' ∧ m.frame.line = l

/-- The same state but for the line of the innermost frame, which is `l` in `m'`. -/
def At (l : Nat) (m m' : Machine) : Prop :=
  m' = m.enterLine l

theorem Here.at {l : Nat} {m m' : Machine} (h : Here l m m') : At l m m' := by
  obtain ⟨rfl, rfl⟩ := h
  exact m.enterLine_self.symm

theorem frame_line_bind (m : Machine) (name : String) (value : Value) :
    (m.bind name value).frame.line = m.frame.line := by
  obtain ⟨store, ⟨globals, calls⟩, output⟩ := m
  unfold bind
  split <;> cases calls <;> rfl

end Machine

/-! ## Exceptions beside a run that stands still -/

/-- An exception has collected the entries of `trace` on its way to the state `m`, in which the
frames that it has left are gone; in `still`, where nothing has been left, they are still there. No
more than `n` are gone. -/
structure Unwound (n : Nat) (trace : List TraceEntry) (m still : Machine) : Prop where
  globals : still.stack.globals = m.stack.globals
  frames : ∃ gone, still.stack.calls = gone ++ m.stack.calls ∧ trace = gone.map Frame.entry ∧
    gone.length ≤ n

/-- An exception collects the frame that it leaves, and one more is gone. -/
theorem Unwound.leave {n : Nat} {e : Exception} {m still : Machine}
    (h : Unwound n e.trace m still) (hcalls : m.stack.calls ≠ []) :
    Unwound (n + 1) (e.leave ⟨m.frame.name, m.frame.line⟩).trace m.pop still := by
  obtain ⟨hglobals, gone, hframes, htrace, hlength⟩ := h
  obtain ⟨top, rest, htop⟩ := List.exists_cons_of_ne_nil hcalls
  have hentry : (⟨m.frame.name, m.frame.line⟩ : TraceEntry) = top.entry := by
    rw [Machine.frame, CallStack.current, htop]
    rfl
  refine ⟨hglobals, gone ++ [top], ?_, ?_, ?_⟩
  · change still.stack.calls = gone ++ [top] ++ m.stack.calls.tail
    rw [hframes, htop]
    simp
  · rw [Exception.leave, htrace, hentry, List.map_append]
    rfl
  · simpa using hlength

/-- Results of two evaluations, the second of which stands still if it is interrupted; `K` relates
the states if neither is. -/
inductive ResultBeside (n : Nat) (K : Machine → Machine → Prop) :
    Except Interrupt α × Machine → Except Interrupt α × Machine → Prop
  | ok {a : α} {m m' : Machine} : K m m' → ResultBeside n K (.ok a, m) (.ok a, m')
  | raised {e : Exception} {m still : Machine} : Unwound n e.trace m still →
      ResultBeside n K (.error (.raised e), m) (.error (.raised ⟨e.fault, e.loc, []⟩), still)
  | unfinished {m m' : Machine} :
      ResultBeside n K (.error .unfinished, m) (.error .unfinished, m')

namespace Evaluation

open Machine

/-- Two evaluations that go in step from states in `K` to states in `K'`, unless they are
interrupted; `x'` stands still then. -/
def Beside (n : Nat) (K K' : Machine → Machine → Prop) (x x' : Evaluation α) : Prop :=
  ∀ m m', K m m' → (x m).InStep Eq (ResultBeside n K') (x' m')

section Rules

variable {n l : Nat} {K K' K'' : Machine → Machine → Prop}

theorem beside_bind {x x' : Evaluation α} {f f' : α → Evaluation β} (hx : Beside n K K' x x')
    (hf : ∀ a, Beside n K' K'' (f a) (f' a)) : Beside n K K'' (x >>= f) (x' >>= f') := by
  intro m m' hm
  refine (hx m m' hm).bind fun r r' hr => ?_
  cases hr with
  | ok hm₁ => exact hf _ _ _ hm₁
  | raised hunwound => exact .ended (.raised hunwound)
  | unfinished => exact .ended .unfinished

/-- Where the frame is at the line `l` already, that is known. -/
theorem Beside.here {x x' : Evaluation α} (h : Beside n (At l) K x x') : Beside n (Here l) K x x' :=
  fun m m' hm => h m m' hm.at

theorem beside_pure (hK : ∀ m m', K m m' → K' m m') (a : α) :
    Beside n K K' (pure a) (pure a) :=
  fun m m' hm => .ended (.ok (hK m m' hm))

theorem beside_raise (fault : Fault) (loc : Location) :
    Beside n (Here l) K (raise fault loc : Evaluation α) (raise fault loc) := by
  rintro m m' ⟨rfl, -⟩
  exact .ended (.raised ⟨rfl, [], rfl, rfl, Nat.zero_le n⟩)

theorem beside_look {f : Machine → α} (hf : ∀ m m', K m m' → f m = f m') :
    Beside n K K (look f) (look f) := by
  intro m m' hm
  have hlook : look f m' = .ended (.ok (f m), m') := by rw [look, hf m m' hm]
  rw [hlook]
  exact .ended (.ok hm)

theorem beside_perform (op : Operation α) (loc : Location) :
    Beside n (Here l) (Here l) (perform op loc) (perform op loc) := by
  rintro m m' ⟨rfl, hl⟩
  unfold perform
  split
  · exact .ended (.ok ⟨rfl, hl⟩)
  · exact .ended (.raised ⟨rfl, [], rfl, rfl, Nat.zero_le n⟩)

theorem beside_modify {f : Machine → Machine} (hf : ∀ m, (f m).frame.line = m.frame.line) :
    Beside n (Here l) (Here l) (modify f) (modify f) := by
  rintro m m' ⟨rfl, hl⟩
  exact .ended (.ok ⟨rfl, (hf m).trans hl⟩)

theorem beside_boundary (loc : Location) :
    Beside n (Here l) (Here l) (boundary loc) (boundary loc) := by
  rintro m m' ⟨rfl, hl⟩
  refine .paused rfl ⟨rfl, rfl, rfl⟩ fun reply reply' hr hr' ho => ?_
  have houtput : reply.keep.elim m.output m.output.trim =
      reply'.keep.elim m.output m.output.trim := ho
  dsimp only
  rw [houtput]
  split <;> split <;> first | exact .ended (.ok ⟨rfl, hl⟩) | contradiction

/-- Coming to the line of `loc` is working at it. -/
theorem beside_atLine {x x' : Evaluation α} {loc : Location}
    (h : Beside n (At loc.line) (At loc.line) x x') : Beside n (At l) (At l) x (atLine loc x') := by
  rintro m m' rfl
  have hline : (m.enterLine l).frame.line = l := by rw [Machine.frame_enterLine]
  have hstart : (m.enterLine l).enterLine loc.line = m.enterLine loc.line :=
    m.enterLine_enterLine ..
  have hx := h m (m.enterLine loc.line) rfl
  rw [← Execution.bind_ended (x m), atLine, hstart, hline]
  refine hx.bind fun r r' hr => ?_
  cases hr with
  | ok hm₁ =>
    refine .ended (.ok ?_)
    rw [hm₁, At, Machine.enterLine_enterLine]
  | raised hunwound => exact .ended (.raised hunwound)
  | unfinished => exact .ended .unfinished

/-- Coming to the line at which the second state is makes the two states the same (`Here`). -/
theorem beside_enterLine {f f' : Unit → Evaluation α} {loc : Location}
    (h : Beside n (Here loc.line) K (f ()) (f' ())) :
    Beside n (At loc.line) K (enterLine loc >>= f) (enterLine loc >>= f') := by
  rintro m m' rfl
  have hline : (m.enterLine loc.line).frame.line = loc.line := by rw [Machine.frame_enterLine]
  have hagain : (m.enterLine loc.line).enterLine loc.line = m.enterLine loc.line :=
    m.enterLine_enterLine ..
  change (f () (m.enterLine loc.line)).InStep Eq (ResultBeside n K)
    (f' () ((m.enterLine loc.line).enterLine loc.line))
  rw [hagain]
  exact h _ _ ⟨rfl, hline⟩

theorem beside_turns {turn turn' : Nat → Evaluation (Option Flow)}
    (h : ∀ i, Beside n (At l) (At l) (turn i) (turn' i)) (left i : Nat) :
    Beside n (At l) (At l) (turns turn left i) (turns turn' left i) :=
  turns_congr (Beside n (At l) (At l)) (beside_pure fun _ _ => id) beside_bind
    (fun _ _ _ => .ended .unfinished) turn turn' h left i

/-- A call is back in the frame of its caller, or its own `frame` is one of those that are gone. -/
theorem beside_inFrame {frame : Frame} {body body' : Evaluation α}
    (h : Beside n (At frame.line) (At frame.line) body body')
    (hbody : Keeps CallStack.OnlyCurrent n body) :
    Beside (n + 1) (Here l) (Here l) (inFrame frame body) (inFrameStill frame body') := by
  rintro m m' ⟨rfl, hl⟩
  have hstart : m.push frame = (m.push frame).enterLine frame.line :=
    (m.push frame).enterLine_self.symm
  refine ((h _ _ hstart).and_always (hbody (m.push frame))).bind fun r r' hr => ?_
  obtain ⟨hr, hstack⟩ := hr
  have hcalls : r.2.stack.calls ≠ [] := hstack.calls_ne_nil
  cases hr with
  | @ok a m₁ m₁' hm₁ =>
    have hpop : m₁'.pop = m₁.pop := by
      rw [hm₁]
      exact Machine.pop_enterLine hcalls _
    have hline : m₁.pop.frame.line = l := by
      have hcurrent := hstack.pop.current
      change m₁.pop.stack.current.line = l
      rw [show m₁.pop.stack = m₁.stack.pop from rfl, hcurrent]
      exact hl
    exact .ended (.ok ⟨hpop.symm, hline⟩)
  | raised hunwound => exact .ended (.raised (hunwound.leave hcalls))
  | unfinished => exact .ended .unfinished

theorem beside_congruence (n l : Nat) : AssignCongruence (Beside n (Here l) (Here l)) where
  pure := beside_pure fun _ _ => id
  bind := beside_bind
  raise := beside_raise
  load name := beside_look fun m m' hm => by rw [hm.1]
  truth v := beside_look fun m m' hm => by rw [hm.1]
  perform := beside_perform
  write text := beside_modify fun _ => rfl
  bindName name value := beside_modify fun m => m.frame_line_bind name value

end Rules

end Evaluation

/-! ## Statements -/

open Machine Evaluation Manner Watch

section Statements

variable {n limit : Nat} {call call' : Caller}

theorem beside_step {act act' : Evaluation Unit} {loc : Location} (flow : Flow)
    (hact : Beside n (Here loc.line) (Here loc.line) act act') :
    Beside n (At loc.line) (At loc.line) (step loc flow act) (step loc flow act') := by
  refine beside_enterLine (beside_bind hact fun _ => ?_)
  exact beside_bind (beside_boundary loc) fun _ => beside_pure (fun _ _ hm => hm.at) flow

theorem beside_test
    (hexpr : ∀ (l : Nat) (e : Expr), Beside n (Here l) (Here l) (e.eval call) (e.eval call'))
    (condition : Expr) (loc : Location) :
    Beside n (At loc.line) (At loc.line) (test call condition loc) (test call' condition loc) := by
  refine beside_enterLine (beside_bind (hexpr loc.line condition) fun v => ?_)
  refine beside_bind ((beside_congruence n loc.line).truth v) fun holds => ?_
  exact beside_bind (beside_boundary loc) fun _ => beside_pure (fun _ _ hm => hm.at) holds

mutual

/-- A statement `st` executed as usual is beside `st` standing still at its line. -/
theorem Stmt.exec_beside
    (hexpr : ∀ (l : Nat) (e : Expr), Beside n (Here l) (Here l) (e.eval call) (e.eval call')) :
    (st : Stmt) → Beside n (At st.loc.line) (At st.loc.line) (st.exec call limit)
      (st.execStill call' limit)
  | .expr e loc => by
    simp only [Stmt.execIn, watch_plain, watch_still]
    exact beside_step .normal (beside_bind (hexpr _ e) fun _ => beside_pure (fun _ _ => id) ())
  | .assign target e loc => by
    simp only [Stmt.execIn, watch_plain, watch_still]
    exact beside_step .normal (beside_bind (hexpr _ e) fun v =>
      target.assign_rel (beside_congruence n _) (hexpr _) loc v)
  | .augment target op e loc => by
    simp only [Stmt.execIn, watch_plain, watch_still]
    exact beside_step .normal (target.update_rel (beside_congruence n _) (hexpr _) loc op e)
  | .conditional branches otherwise loc => by
    simp only [Stmt.execIn, watch_plain, watch_still]
    refine beside_enterLine (Beside.here ?_)
    exact execBranches_beside hexpr loc.line (execOtherwise_beside hexpr loc.line otherwise)
      branches
  | .whileLoop condition body loc => by
    simp only [Stmt.execIn, watch_plain, watch_still]
    refine beside_turns (fun i => ?_) limit 0
    refine beside_bind (beside_test hexpr condition loc) fun holds => ?_
    cases holds with
    | true =>
      exact beside_bind (execBlock_beside hexpr loc.line body) fun _ =>
        beside_pure (fun _ _ => id) _
    | false => exact beside_pure (fun _ _ => id) _
  | .forLoop var iterable body loc => by
    simp only [Stmt.execIn, watch_plain, watch_still]
    refine beside_enterLine (beside_bind (hexpr loc.line iterable) fun v => ?_)
    refine beside_bind (beside_perform _ loc) fun walk => Beside.here ?_
    refine beside_turns (fun i => ?_) limit 0
    refine beside_bind (beside_look fun m m' hm => by rw [hm]; rfl) fun item? => ?_
    cases item? with
    | none => exact beside_pure (fun _ _ => id) _
    | some item =>
      refine beside_enterLine ?_
      refine beside_bind ((beside_congruence n loc.line).bindName var item) fun _ => ?_
      refine beside_bind (beside_boundary loc) fun _ => Beside.here ?_
      exact beside_bind (execBlock_beside hexpr loc.line body) fun _ =>
        beside_pure (fun _ _ => id) _
  | .define f => by
    simp only [Stmt.execIn, watch_plain, watch_still]
    exact beside_step .normal ((beside_congruence n _).bindName f.name _)
  | .giveBack none loc => by
    simp only [Stmt.execIn, watch_plain, watch_still]
    exact beside_step _ (beside_pure (fun _ _ => id) ())
  | .giveBack (some e) loc => by
    simp only [Stmt.execIn, watch_plain, watch_still]
    refine beside_enterLine (beside_bind (hexpr loc.line e) fun v => ?_)
    exact beside_bind (beside_boundary loc) fun _ => beside_pure (fun _ _ hm => hm.at) _
  | .breakLoop loc | .continueLoop loc | .pass loc => by
    simp only [Stmt.execIn, watch_plain, watch_still]
    exact beside_step _ (beside_pure (fun _ _ => id) ())
  | .global _ loc => by
    simp only [Stmt.execIn, watch_plain, watch_still]
    exact beside_enterLine (beside_pure (fun _ _ hm => hm.at) _)

/-- A block executed as usual is beside the same block standing still, at whatever line `l` the
frame has been left by the statement before it. -/
theorem execBlock_beside
    (hexpr : ∀ (l : Nat) (e : Expr), Beside n (Here l) (Here l) (e.eval call) (e.eval call'))
    (l : Nat) :
    (body : List Stmt) →
      Beside n (At l) (At l) (execBlock call limit body) (execBlockStill call' limit body)
  | [] => by
    simp only [execBlockIn, watch_plain, watch_still]
    exact beside_pure (fun _ _ => id) _
  | st :: rest => by
    simp only [execBlockIn, watch_plain, watch_still, atLine_plain, atLine_still]
    refine beside_bind (beside_atLine (st.exec_beside hexpr)) fun flow => ?_
    cases flow with
    | normal => exact execBlock_beside hexpr l rest
    | breakLoop | continueLoop | giveBack _ => exact beside_pure (fun _ _ => id) _

theorem execBranches_beside
    (hexpr : ∀ (l : Nat) (e : Expr), Beside n (Here l) (Here l) (e.eval call) (e.eval call'))
    (l : Nat) {otherwise otherwise' : Evaluation Flow}
    (hotherwise : Beside n (At l) (At l) otherwise otherwise') :
    (branches : List Branch) →
      Beside n (At l) (At l) (execBranches call limit otherwise branches)
        (execBranchesIn .still call' limit otherwise' branches)
  | [] => by
    simp only [execBranchesIn]
    exact hotherwise
  | ⟨condition, body, loc⟩ :: rest => by
    simp only [execBranchesIn, watch_plain, watch_still, atLine_plain, atLine_still]
    refine beside_bind (beside_atLine (beside_test hexpr condition loc)) fun holds => ?_
    cases holds with
    | true => exact execBlock_beside hexpr l body
    | false => exact execBranches_beside hexpr l hotherwise rest

theorem execOtherwise_beside
    (hexpr : ∀ (l : Nat) (e : Expr), Beside n (Here l) (Here l) (e.eval call) (e.eval call'))
    (l : Nat) :
    (otherwise : Option (List Stmt)) →
      Beside n (At l) (At l) (execOtherwise call limit otherwise)
        (execOtherwiseIn .still call' limit otherwise)
  | none => by
    simp only [execOtherwiseIn]
    exact beside_pure (fun _ _ => id) _
  | some body => by
    simp only [execOtherwiseIn]
    exact execBlock_beside hexpr l body

end

end Statements

/-- A call is beside the same call standing still, by induction on `left`, the number of calls that
are left: so many frames can be gone. -/
theorem callWithin_beside (limit left l : Nat) :
    Caller.Rel (Beside left (Here l) (Here l)) (callWithin limit left) (callStill limit left) := by
  induction left generalizing l with
  | zero => exact fun _ _ _ loc => beside_raise .tooManyCalls loc
  | succ left ih =>
    intro f args keywords loc
    simp only [callIn, watch_plain, inFrame_plain, watch_still, inFrame_still, before_silent]
    cases f.bindArguments args keywords with
    | error fault => exact beside_raise fault loc
    | ok bindings =>
      have hexpr : ∀ (k : Nat) (e : Expr), Beside left (Here k) (Here k)
          (e.eval (callWithin limit left)) (e.eval (callStill limit left)) :=
        fun k e => e.eval_rel (beside_congruence left k).toCongruence (ih k)
      -- That the body changes its own frame only is what brings the caller's frame back.
      have hkeeps : Keeps CallStack.OnlyCurrent left
          (execBlock (callWithin limit left) limit f.body) :=
        execBlock_onlyCurrent (fun e => (eval_undisturbed e limit left).onlyCurrent) limit f.body
      refine beside_bind (beside_inFrame (execBlock_beside hexpr _ f.body) hkeeps) fun flow => ?_
      cases flow with
      | giveBack v => exact beside_pure (fun _ _ => id) v
      | normal | breakLoop | continueLoop => exact beside_pure (fun _ _ => id) Value.none

/-! ## Runs -/

namespace Program

/-- A run goes in step with `runStill`, and an exception `e` ends it with the stack of that one as
its traceback. -/
theorem run_inStep_runStill (p : Program) (limit : Nat) :
    (p.run limit).InStep Eq (fun r r' => ∀ e, r.1 = .raised e →
      r'.1 = .error (.raised ⟨e.fault, e.loc, []⟩) ∧
      e.trace = r'.2.stack.frames.reverse.map Frame.entry ∧
      r'.2.stack.globals.name = moduleName ∧ r'.2.stack.depth ≤ callLimit) (p.runStill limit) := by
  have hexpr : ∀ (l : Nat) (e : Expr), Beside callLimit (Here l) (Here l)
      (e.eval (callWithin limit callLimit)) (e.eval (callStill limit callLimit)) :=
    fun l e => e.eval_rel (beside_congruence callLimit l).toCongruence
      (callWithin_beside limit callLimit l)
  have hkeeps := execBlock_onlyCurrent
    (fun e => (eval_undisturbed e limit callLimit).onlyCurrent) limit p.body Machine.start
  have hbody := @execBlock_beside _ limit _ _ hexpr Machine.start.frame.line p.body
    Machine.start Machine.start Machine.start.enterLine_self.symm
  rw [runStill, ← Execution.bind_ended (execBlockStill _ limit p.body Machine.start)]
  refine (hbody.and_always hkeeps).bind fun r r' hr => .ended ?_
  obtain ⟨hr, hstack⟩ := hr
  -- All calls have been left, so `gone` is the whole stack of the run that stands still.
  have hcalls : r.2.stack.calls = [] := List.length_eq_zero_iff.1 hstack.depth
  have hname : r.2.stack.globals.name = moduleName := by
    have hcurrent := congrArg Frame.name hstack.current
    rw [CallStack.current, hcalls] at hcurrent
    exact hcurrent
  intro e he
  cases hr with
  | ok => cases he
  | unfinished => cases he
  | @raised e₀ m still hunwound =>
    obtain ⟨hglobals, gone, hframes, htrace, hlength⟩ := hunwound
    dsimp only at hcalls hname
    obtain rfl : e₀.leave ⟨moduleName, m.stack.globals.line⟩ = e := by
      simpa [Outcome.of] using he
    rw [hcalls, List.append_nil] at hframes
    refine ⟨rfl, ?_, ?_, ?_⟩
    · rw [CallStack.reverse_frames, hframes, hglobals, Exception.leave, htrace, ← hname,
        List.map_append]
      rfl
    · rw [hglobals]
      exact hname
    · rw [CallStack.depth, hframes]
      exact hlength

theorem neverAborts_of_raised {p : Program} {limit : Nat} {hook : Pause → StateM σ Reply} {s : σ}
    {e : Exception} (h : ((p.run limit).drive hook s).1.1 = .raised e) :
    (p.run limit).NeverAborts hook s := by
  intro c hc habort
  obtain ⟨i, hi⟩ := List.mem_iff_getElem?.1 hc
  have haborted := ((p.run_obeys limit).length_of_abort hi habort).2
  rw [h] at haborted
  cases haborted

end Program

end Stepper
