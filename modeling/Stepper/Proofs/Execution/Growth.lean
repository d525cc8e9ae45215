import Stepper.Proofs.Execution.Orderly

/-!
# Bindings only grow

* `CallStack.Grown`: the outer frames of a stack are still there in another one, and each has bound
  the names that it had bound, in the same order, and perhaps more after them.
* `Execution.Grows`: so it is from each pause of an execution to the next, and hence from each to
  all later ones (`Execution.Grows.pairwise`).
* `callWithin_growing`: calls do not take away any name.
* `Program.runChecked`: a run that looks back, for every call that is left and for the program
  itself, on the whole time that its frame was there. It is the run itself.
* `Program.bindings_grow`: what the frames of a run have bound.
-/

namespace Stepper

/-! ## Stacks that grow -/

/-- The frame `g'` is `g` at a later time: the names that `g` had bound are its first ones. -/
structure Frame.Grown (g g' : Frame) : Prop where
  name : g'.name = g.name
  function : g'.function? = g.function?
  names : g.names <+: g'.names

namespace Frame.Grown

variable {g g' g'' : Frame}

theorem rfl : g.Grown g :=
  ⟨Eq.refl _, Eq.refl _, List.prefix_rfl⟩

theorem trans (h : g.Grown g') (h' : g'.Grown g'') : g.Grown g'' :=
  ⟨h'.name.trans h.name, h'.function.trans h.function, h.names.trans h'.names⟩

theorem set (g : Frame) (name : String) (value : Value) : g.Grown (g.set name value) :=
  ⟨Eq.refl _, Eq.refl _, prefix_bindIn⟩

end Frame.Grown

theorem Frame.grown_trans_all {gs gs' gs'' : List Frame} (h : List.Forall₂ Grown gs gs')
    (h' : List.Forall₂ Grown gs' gs'') : List.Forall₂ Grown gs gs'' := by
  induction h generalizing gs'' with
  | nil => exact h'
  | cons hg _ ih =>
    obtain ⟨g'', rest, hg', hrest, rfl⟩ := List.forall₂_cons_left_iff.1 h'
    exact .cons (hg.trans hg') (ih hrest)

namespace CallStack

/-- The first `n` frames of `s`, the program's own included, are still there in `s'`, and have only
grown. -/
def Grown (n : Nat) (s s' : CallStack) : Prop :=
  List.Forall₂ Frame.Grown (s.frames.take n) (s'.frames.take n)

variable {n : Nat} {s s' s'' : CallStack}

theorem length_frames : s.frames.length = s.depth + 1 := by
  simp [frames, depth]

namespace Grown

theorem rfl : s.Grown n s :=
  List.forall₂_same.2 fun _ _ => .rfl

theorem trans (h : s.Grown n s') (h' : s'.Grown n s'') : s.Grown n s'' :=
  Frame.grown_trans_all h h'

theorem of_frames (h : List.Forall₂ Frame.Grown s.frames s'.frames) : s.Grown n s' :=
  List.forall₂_take n h

theorem mono {k : Nat} (h : s.Grown n s') (hk : k ≤ n) : s.Grown k s' := by
  have := List.forall₂_take k h
  rwa [List.take_take, List.take_take, Nat.min_eq_left hk] at this

/-- A call adds a `frame` to the `s.depth + 1` that are there. -/
theorem push (hn : n ≤ s.depth + 1) (frame : Frame) : s.Grown n (s.push frame) := by
  have hframes : (s.push frame).frames = s.frames ++ [frame] := by
    simp [CallStack.push, frames]
  rw [Grown, hframes, List.take_append_of_le_length (length_frames ▸ hn)]
  exact rfl

/-- When a call is left, the `s.depth` frames below it are still there. -/
theorem pop (hn : n ≤ s.depth) : s.Grown n s.pop := by
  obtain ⟨globals, calls⟩ := s
  cases calls with
  | nil => exact rfl
  | cons top rest =>
    have hframes : frames ⟨globals, top :: rest⟩ = frames ⟨globals, rest⟩ ++ [top] := by
      simp [frames]
    rw [Grown, hframes, List.take_append_of_le_length (length_frames ▸ hn)]
    exact rfl

theorem modifyCurrent {f : Frame → Frame} (hf : ∀ g, Frame.Grown g (f g)) :
    s.Grown n (s.modifyCurrent f) := by
  obtain ⟨globals, calls⟩ := s
  refine of_frames ?_
  cases calls with
  | nil => exact .cons (hf globals) .nil
  | cons top rest =>
    simp only [CallStack.modifyCurrent, frames, List.reverse_cons]
    exact .cons .rfl (List.rel_append (List.forall₂_same.2 fun _ _ => .rfl) (.cons (hf top) .nil))

theorem modifyGlobals {f : Frame → Frame} (hf : ∀ g, Frame.Grown g (f g)) :
    s.Grown n (s.modifyGlobals f) :=
  of_frames (.cons (hf s.globals) (List.forall₂_same.2 fun _ _ => .rfl))

end Grown

end CallStack

/-! ## Executions that grow -/

/-- From the stack `s` to the first pause, from each pause to the next, and from the last one to the
end, the first `n` frames stay and only grow. -/
inductive Execution.Grows (n : Nat) : CallStack → Execution (β × Machine) → Prop
  | ended {s : CallStack} {r : β × Machine} : s.Grown n r.2.stack → Grows n s (.ended r)
  | paused {s : CallStack} {p : Pause} {resume : Reply → Execution (β × Machine)} :
      s.Grown n p.machine.stack → (∀ reply, Grows n p.machine.stack (resume reply)) →
        Grows n s (.paused p resume)

/-- The stack as it is at first (`s`), at each pause of `x` and at the end. -/
def Execution.stackHistory (x : Execution (β × Machine)) (hook : Pause → StateM σ Reply) (t : σ)
    (s : CallStack) : List CallStack :=
  s :: (x.history hook t).map (·.1.machine.stack) ++ [(x.drive hook t).1.2.stack]

namespace Execution.Grows

variable {n : Nat} {s s' : CallStack} {x : Execution (β × Machine)}

theorem after (hs : s.Grown n s') (h : x.Grows n s') : x.Grows n s := by
  cases h with
  | ended hr => exact .ended (hs.trans hr)
  | paused hp hresume => exact .paused (hs.trans hp) hresume

theorem mono {k : Nat} (h : x.Grows n s) (hk : k ≤ n) : x.Grows k s := by
  induction h with
  | ended hr => exact .ended (hr.mono hk)
  | paused hp _ ih => exact .paused (hp.mono hk) ih

/-- What follows `x` may rely on what `Always` holds of its result. -/
theorem bind {P : Pause → Prop} {Q : β × Machine → Prop} {f : β × Machine → Execution (γ × Machine)}
    (h : x.Grows n s) (halways : x.Always P Q) (hf : ∀ r, Q r → (f r).Grows n r.2.stack) :
    (x.bind f).Grows n s := by
  induction h with
  | ended hr =>
    cases halways with
    | ended hq => exact (hf _ hq).after hr
  | paused hp _ ih =>
    cases halways with
    | paused _ hresume => exact .paused hp fun reply => ih reply (hresume reply)

variable {hook : Pause → StateM σ Reply} {t : σ}

theorem stackHistory_paused (p : Pause) (resume : Reply → Execution (β × Machine)) :
    (Execution.paused p resume).stackHistory hook t s =
      s :: (resume (hook p t).1).stackHistory hook (hook p t).2 p.machine.stack := by
  simp [stackHistory, drive_paused]

/-- From each pause to all later ones the frames have only grown, by induction on the execution. -/
theorem pairwise (h : x.Grows n s) : (x.stackHistory hook t s).Pairwise (CallStack.Grown n) := by
  -- Each pause grows from the one before it; `Grown` is transitive, so it does from all before it.
  induction h generalizing t with
  | @ended s r hr => exact List.pairwise_pair.2 hr
  | @paused s p resume hp _ ih =>
    have hlater := ih (hook p t).1 (t := (hook p t).2)
    rw [stackHistory_paused]
    refine List.pairwise_cons.2 ⟨fun s' hs' => ?_, hlater⟩
    -- what comes after the next pause has grown since then
    rcases List.mem_cons.1 hs' with rfl | hs'
    · exact hp
    · exact hp.trans ((List.pairwise_cons.1 hlater).1 s' hs')

end Execution.Grows

/-! ## Evaluations that grow -/

namespace Evaluation

/-- Where `d` calls are active, their frames and the program's own, `d + 1` in all, stay and only
grow. -/
def GrowsAt (d : Nat) (x : Evaluation α) : Prop :=
  ∀ m, m.stack.depth = d → (x m).Grows (d + 1) m.stack

/-- Besides being the same as `x'`, the evaluation `x` lets the frames grow. -/
def Growing (d : Nat) (x x' : Evaluation α) : Prop :=
  SameAt d x x' ∧ GrowsAt d x

variable {d : Nat}

theorem growsAt_of_ended {x : Evaluation α}
    (h : ∀ m, ∃ r m', x m = .ended (r, m') ∧ m.stack.Grown (d + 1) m'.stack) : GrowsAt d x := by
  intro m _
  obtain ⟨r, m', hx, hm'⟩ := h m
  rw [hx]
  exact .ended hm'

theorem growsAt_bindName (name : String) (value : Value) : GrowsAt d (bindName name value) := by
  refine growsAt_of_ended fun m => ⟨_, _, rfl, ?_⟩
  show m.stack.Grown (d + 1) (m.bind name value).stack
  rw [Machine.bind]
  split
  · exact .modifyCurrent fun g => .set g name value
  · exact .modifyGlobals fun g => .set g name value

theorem growsAt_boundary (loc : Location) : GrowsAt d (boundary loc) := by
  intro m _
  refine .paused .rfl fun reply => ?_
  dsimp only
  split
  · exact .ended .rfl
  · exact .ended .rfl
  · exact .ended .rfl

theorem growsAt_perform (op : Operation α) (loc : Location) : GrowsAt d (perform op loc) := by
  refine growsAt_of_ended fun m => ?_
  unfold perform
  split
  · exact ⟨_, _, rfl, .rfl⟩
  · exact ⟨_, _, rfl, .rfl⟩

theorem Growing.bind {x x' : Evaluation α} {f f' : α → Evaluation β} (hx : Growing d x x')
    (hf : ∀ a, Growing d (f a) (f' a)) : Growing d (x >>= f) (x' >>= f') := by
  refine ⟨hx.1.bind fun a => (hf a).1, fun m hm => ?_⟩
  refine (hx.2 m hm).bind (hx.1 m hm).2 fun (r, m₁) hm₁ => ?_
  cases r with
  | ok a =>
    have hmore := (hf a).2 m₁ hm₁
    exact hmore
  | error i => exact .ended .rfl

/-- A call adds a `frame` and takes it away again, so a `body` that is growing at `d + 1` leaves a
call that is growing at `d`. -/
theorem growing_inFrame (frame : Frame) {body body' : Evaluation α}
    (h : Growing (d + 1) body body') : Growing d (inFrame frame body) (inFrame frame body') := by
  refine ⟨sameAt_inFrame frame h.1, fun m hm => ?_⟩
  have hdepth : (m.push frame).stack.depth = d + 1 := congrArg (· + 1) hm
  have hbody := ((h.2 _ hdepth).mono (Nat.le_succ (d + 1))).after (.push (by omega) frame)
  refine hbody.bind (h.1 _ hdepth).2 fun (r, m₁) hm₁ => ?_
  have hpop : m₁.stack.Grown (d + 1) m₁.pop.stack := .pop (Nat.le_of_eq hm₁.symm)
  cases r with
  | ok a => exact .ended hpop
  | error i => exact .ended hpop

theorem growing_stmtCongruence (limit : Nat) : StmtCongruence (Growing d) limit limit := by
  have hsame := sameAt_stmtCongruence (d := d) limit
  have hstack : ∀ {α : Type} {x : Evaluation α},
      (∀ m, ∃ r m', x m = .ended (r, m') ∧ m'.stack = m.stack) → GrowsAt d x := fun h =>
    growsAt_of_ended fun m => by
      obtain ⟨r, m', hx, hm'⟩ := h m
      exact ⟨r, m', hx, hm' ▸ .rfl⟩
  exact {
    pure := fun a => ⟨hsame.pure a, hstack fun _ => ⟨_, _, rfl, rfl⟩⟩
    bind := Growing.bind
    raise := fun fault loc => ⟨hsame.raise fault loc, hstack fun _ => ⟨_, _, rfl, rfl⟩⟩
    load := fun name => ⟨hsame.load name, hstack fun _ => ⟨_, _, rfl, rfl⟩⟩
    truth := fun v => ⟨hsame.truth v, hstack fun _ => ⟨_, _, rfl, rfl⟩⟩
    perform := fun op loc => ⟨hsame.perform op loc, growsAt_perform op loc⟩
    write := fun text => ⟨hsame.write text, hstack fun _ => ⟨_, _, rfl, rfl⟩⟩
    item := fun walk i => ⟨hsame.item walk i, hstack fun _ => ⟨_, _, rfl, rfl⟩⟩
    enterLine := fun loc => ⟨hsame.enterLine loc, growsAt_of_ended fun _ =>
      ⟨_, _, rfl, .modifyCurrent fun g => ⟨rfl, rfl, List.prefix_rfl⟩⟩⟩
    bindName := fun name value => ⟨hsame.bindName name value, growsAt_bindName name value⟩
    boundary := fun loc => ⟨hsame.boundary loc, growsAt_boundary loc⟩
    turns := fun _ h => turns_congr (Growing d)
      (fun _ => ⟨fun _ hm => ⟨rfl, .ended hm⟩, fun _ _ => .ended .rfl⟩) Growing.bind
      ⟨fun _ hm => ⟨rfl, .ended hm⟩, fun _ _ => .ended .rfl⟩ _ _ h limit 0 }

end Evaluation

/-! ## Runs that look back -/

/-- While `x` goes on from `m`, the frames of `m` stay and only grow: whatever the replies are, each
pause shows them as they were at any pause before, but for names that have come last. -/
def Machine.KeepsFrames (m : Machine) (x : Execution (β × Machine)) : Prop :=
  ∀ (σ : Type) (hook : Pause → StateM σ Reply) (t : σ),
    (x.stackHistory hook t m.stack).Pairwise (CallStack.Grown (m.stack.depth + 1))

namespace Evaluation

open Classical in
/-- The evaluation `x`, unless it takes away a frame of the state in which it starts, or a name from
one: then it is `alarm`. -/
noncomputable def checked (alarm x : Evaluation α) : Evaluation α := fun m =>
  if m.KeepsFrames (x m) then x m else alarm m

theorem GrowsAt.keepsFrames {d : Nat} {x : Evaluation α} (h : GrowsAt d x) {m : Machine}
    (hm : m.stack.depth = d) : m.KeepsFrames (x m) := by
  subst hm
  exact fun σ hook t => (h m rfl).pairwise

theorem Growing.checked {d : Nat} {x x' : Evaluation α} (h : Growing d x x')
    (alarm : Evaluation α) : Growing d x (checked alarm x') := by
  refine ⟨fun m hm => ⟨?_, (h.1 m hm).2⟩, h.2⟩
  have hkeeps : m.KeepsFrames (x' m) := (h.1 m hm).1 ▸ h.2.keepsFrames hm
  rw [Evaluation.checked, if_pos hkeeps]
  exact (h.1 m hm).1

end Evaluation

open Evaluation Watch Manner

/-- Calls a function, if there are calls left. The body is `checked` in the frame of the call. -/
noncomputable def callChecked (alarm : Evaluation Flow) (limit : Nat) : Nat → Caller
  | 0 => fun _ _ _ loc => raise .tooManyCalls loc
  | left + 1 => fun f args keywords loc => do
    match f.bindArguments args keywords with
    | .error fault => raise fault loc
    | .ok bindings =>
      let body := execBlock (callChecked alarm limit left) limit f.body
      match ← inFrame (.ofCall f bindings) (checked alarm body) with
      | .giveBack v => return v
      | _ => return .none

/-- The execution of `p` whose body and calls are all `checked`. -/
noncomputable def Program.runChecked (p : Program) (alarm : Evaluation Flow) (limit : Nat) :
    Execution (Outcome × Machine) :=
  (checked alarm (execBlock (callChecked alarm limit callLimit) limit p.body) Machine.start).bind
    fun (result, m) => .ended (Outcome.of result m, m)

section Calls

variable (alarm : Evaluation Flow) (limit left : Nat) {d : Nat}

theorem execBlock_growing
    (hcall : Caller.Rel (Growing d) (callWithin limit left) (callChecked alarm limit left))
    (body : List Stmt) :
    Growing d (execBlock (callWithin limit left) limit body)
      (execBlock (callChecked alarm limit left) limit body) :=
  execBlock_rel (growing_stmtCongruence limit)
    (fun e => e.eval_rel (growing_stmtCongruence limit).toCongruence hcall) body

/-- Calls let the frames grow, and the checks find nothing, by induction on `left`, the number of
calls that are left: the body of a call lets the frame of the call grow as well. -/
theorem callWithin_growing :
    Caller.Rel (Growing d) (callWithin limit left) (callChecked alarm limit left) := by
  have hacts {d : Nat} := growing_stmtCongruence (d := d) limit
  induction left generalizing d with
  | zero => exact fun _ _ _ loc => hacts.raise _ loc
  | succ left ih =>
    intro f args keywords loc
    simp only [callIn, watch_plain, inFrame_plain, before_silent, callChecked]
    cases f.bindArguments args keywords with
    | error fault => exact hacts.raise fault loc
    | ok bindings =>
      -- The body lets the frame of its call grow too, one of `d + 2`, so its check finds nothing.
      have hbody := (execBlock_growing alarm limit left (d := d + 1) ih f.body).checked alarm
      refine (growing_inFrame (.ofCall f bindings) hbody).bind fun flow => ?_
      cases flow with
      | giveBack v => exact hacts.pure v
      | normal | breakLoop | continueLoop => exact hacts.pure Value.none

theorem body_growing (body : List Stmt) :
    Growing d (execBlock (callWithin limit left) limit body)
      (execBlock (callChecked alarm limit left) limit body) :=
  execBlock_growing alarm limit left (callWithin_growing alarm limit left) body

end Calls

namespace Program

/-- The checks find nothing in a run, whatever `alarm` is. -/
theorem runChecked_eq_run (p : Program) (alarm : Evaluation Flow) (limit : Nat) :
    p.runChecked alarm limit = p.run limit := by
  have hbody := (body_growing alarm limit callLimit (d := 0) p.body).checked alarm
  rw [runChecked, run, (hbody.1 Machine.start rfl).1]

/-- In a run of the program `p` of a source text every frame is `Orderly` at every pause, at the end
and before every act: it lists each name that it has bound once, and the frame of a call starts with
the parameters and goes on with names of the function's own. While a block is executed from any
state `m`, the frames of `m` stay, and the names that they have bound at some pause are the first
ones that they have bound at any later one (`KeepsFrames`). So `runChecked`, where that is checked
for the body of every call and for the program itself, is `run`. -/
theorem bindings_grow {source : String} {p : Program} (h : ofSource source = .ok p) (limit : Nat) :
    (∀ (σ : Type) (hook : Pause → StateM σ Reply) (t : σ),
      (∀ c ∈ (p.run limit).history hook t, c.1.machine.Orderly) ∧
      ((p.run limit).drive hook t).1.2.Orderly) ∧
    (∀ alarm : Watch, p.runWatched alarm.onDisorder limit = p.run limit) ∧
    (∀ (left : Nat) (body : List Stmt) (m : Machine),
      m.KeepsFrames (execBlock (callWithin limit left) limit body m)) ∧
    (∀ alarm : Evaluation Flow, p.runChecked alarm limit = p.run limit) := by
  have horderly := run_orderly h limit
  refine ⟨fun σ hook t => ⟨horderly.history, horderly.drive⟩, fun alarm => ?_,
    fun left body m => ?_, fun alarm => p.runChecked_eq_run alarm limit⟩
  · exact runWatched_onDisorder h alarm limit
  · exact (body_growing (interrupt .unfinished) limit left body).2.keepsFrames rfl

/-- The function `f` binds `b` besides its parameter `a`. -/
theorem bindings_grow_call :
    let f : Function := ⟨"f", ["a"], [.assign (.name "b") (.name "a" ⟨2, 6⟩) ⟨2, 2⟩], ["a", "b"],
      ⟨1, 1⟩⟩
    let call : Expr := .call (.name "f" ⟨3, 1⟩) [.int 1 ⟨3, 3⟩] [] ⟨3, 2⟩
    let p : Program := ⟨[.define f, .expr call ⟨3, 1⟩], ["def f(a):", " b = a", "f(1)"]⟩
    ofSource "def f(a):\n b = a\nf(1)" = .ok p ∧
      (∃ c ∈ (p.run 1).history watching (), c.1.machine.frame.names = ["a", "b"] ∧
        c.1.machine.Orderly) ∧
      p.runWatched (Watch.onDisorder fun _ => interrupt .unfinished) 1 = p.run 1 ∧
      p.runChecked (interrupt .unfinished) 1 = p.run 1 := by
  intro f call p
  have hsource : ofSource "def f(a):\n b = a\nf(1)" = .ok p := by
    rw [ofSource_of_lexemes (by cbv)]
    rfl
  have hnames : ((p.run 1).history watching ()).map (·.1.machine.frame.names) =
      [["__name__", "f"], ["a", "b"], ["__name__", "f"]] := by
    decide +kernel
  have hmem : ["a", "b"] ∈ ((p.run 1).history watching ()).map (·.1.machine.frame.names) := by
    rw [hnames]
    decide
  obtain ⟨c, hc, hbound⟩ := List.mem_map.1 hmem
  obtain ⟨horderly, hwatched, -, hchecked⟩ := bindings_grow hsource 1
  exact ⟨hsource, ⟨c, hc, hbound, (horderly Unit watching ()).1 c hc⟩, hwatched _, hchecked _⟩

end Program

end Stepper
