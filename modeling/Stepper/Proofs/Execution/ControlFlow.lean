import Stepper.Proofs.Execution.WellFormed

/-!
# Control never escapes

* `Flow.FitsIn`: a flow that has somewhere to go. Statements that are placed end with no other
  (`execBlock_fits`), whatever expressions and calls do.
* `Program.runStrictly`: a run in which a flow with nowhere to go is not passed over in silence. A
  program of a source text runs the same way (`Program.run_eq_runStrictly`).
* `Program.control_contained`: where statements stand in such a program, and how its blocks end.
-/

namespace Stepper

/-! ## How statements end -/

/-- A flow of this kind has somewhere to go in `c`: a loop to leave, or a function. -/
def Flow.FitsIn (c : Context) : Flow → Prop
  | .normal => True
  | .breakLoop | .continueLoop => c.inLoop
  | .giveBack _ => c.inFunction

theorem Flow.FitsIn.endOfLoop {c : Context} {flow flow' : Flow}
    (h : flow.FitsIn { c with inLoop := true }) (hend : flow.endOfLoop = some flow') :
    flow'.FitsIn c := by
  cases flow <;> cases hend
  · trivial
  · exact h

theorem Flow.eq_normal_of_fitsIn {flow : Flow} (h : flow.FitsIn .outermost) : flow = .normal := by
  cases flow with
  | normal => rfl
  | _ => cases h

theorem Execution.always_true (x : Execution α) : x.Always (fun _ => True) fun _ => True := by
  induction x with
  | ended a => exact .ended trivial
  | paused p resume ih => exact .paused trivial ih

namespace Evaluation

/-- Whatever value `x` comes to has the property `Q`, from any state and with any replies. -/
def Ensures (Q : α → Prop) (x : Evaluation α) : Prop :=
  ∀ m, (x m).Always (fun _ => True) fun r => ∀ a, r.1 = .ok a → Q a

variable {Q : α → Prop} {R : β → Prop} {x : Evaluation α} {f : α → Evaluation β}

theorem Ensures.bind (hx : Ensures Q x) (hf : ∀ a, Q a → Ensures R (f a)) :
    Ensures R (x >>= f) := by
  intro m
  refine (hx m).bind fun (r, m₁) hr => ?_
  cases r with
  | ok a => exact hf a (hr a rfl) m₁
  | error i => exact .ended nofun

theorem Ensures.after (hf : ∀ a, Ensures R (f a)) : Ensures R (x >>= f) := by
  have hx : Ensures (fun _ => True) x := fun m =>
    (x m).always_true.mono (fun _ h => h) fun _ _ _ _ => trivial
  exact hx.bind fun a _ => hf a

theorem ensures_pure {a : α} (h : Q a) : Ensures Q (pure a) :=
  fun _ => .ended fun _ hb => Except.ok.inj hb ▸ h

theorem ensures_interrupt (i : Interrupt) : Ensures Q (interrupt i) :=
  fun _ => .ended nofun

theorem ensures_turns {Q : Flow → Prop} {turn : Nat → Evaluation (Option Flow)}
    (h : ∀ i, Ensures (fun flow? => ∀ flow ∈ flow?, Q flow) (turn i)) (left i : Nat) :
    Ensures Q (turns turn left i) := by
  refine turns_rel (R := fun x _ => Ensures _ x) (S := fun x _ => Ensures Q x)
    (ensures_interrupt _) (fun hx hrest => ?_) turn turn h left i
  refine hx.bind fun flow? hflow => ?_
  cases flow? with
  | none => exact hrest
  | some flow => exact ensures_pure (hflow flow rfl)

/-- Whatever the `hook` is, a result has the property `Q`. -/
theorem Ensures.drive (h : Ensures Q x) {hook : Pause → StateM σ Reply} {t : σ} {m : Machine}
    {a : α} (ha : ((x m).drive hook t).1.1 = .ok a) : Q a :=
  (h m).drive a ha

end Evaluation

open Evaluation Watch Manner

theorem step_fits (loc : Location) (flow : Flow) (act : Evaluation Unit) {Q : Flow → Prop}
    (h : Q flow) : Ensures Q (step loc flow act) :=
  .after fun _ => .after fun _ => .after fun _ => ensures_pure h

section Statements

variable {call : Caller} {limit : Nat} {c : Context}

mutual

/-- A statement that is `Placed` in `c` ends with a flow that has somewhere to go in `c`. -/
theorem Stmt.exec_fits : (s : Stmt) → {c : Context} → s.Placed c →
    Ensures (·.FitsIn c) (s.exec call limit)
  | .expr e loc, _, _ => by
    simp only [Stmt.execIn, watch_plain]; exact step_fits loc .normal _ trivial
  | .assign target e loc, _, _ => by
    simp only [Stmt.execIn, watch_plain]; exact step_fits loc .normal _ trivial
  | .augment target op e loc, _, _ => by
    simp only [Stmt.execIn, watch_plain]; exact step_fits loc .normal _ trivial
  | .conditional branches otherwise loc, _, h => by
    simp only [Stmt.execIn, watch_plain]
    exact .after fun _ => execBranches_fits (execOtherwise_fits otherwise fun body hbody =>
      h.block (List.mem_append_right _ (Option.mem_toList.2 hbody))) branches fun b hb =>
        h.block (List.mem_append_left _ (List.mem_map_of_mem hb))
  | .whileLoop condition body loc, _, h => by
    simp only [Stmt.execIn, watch_plain]
    have hbody := execBlock_fits body (h.block List.mem_cons_self)
    refine ensures_turns (fun _ => .after fun holds => ?_) limit 0
    cases holds with
    -- a turn that ends the loop has used up the flow that only a loop may see
    | true => exact hbody.bind fun _ hflow => ensures_pure fun _ hend => hflow.endOfLoop hend
    | false => exact ensures_pure fun _ hend => Option.some.inj hend ▸ trivial
  | .forLoop var iterable body loc, _, h => by
    simp only [Stmt.execIn, watch_plain]
    have hbody := execBlock_fits body (h.block List.mem_cons_self)
    refine .after fun _ => .after fun v => .after fun walk =>
      ensures_turns (fun i => .after fun item? => ?_) limit 0
    cases item? with
    | none => exact ensures_pure fun _ hend => Option.some.inj hend ▸ trivial
    | some item =>
      exact .after fun _ => .after fun _ => .after fun _ => hbody.bind fun _ hflow =>
        ensures_pure fun _ hend => hflow.endOfLoop hend
  | .define f, _, _ => by
    simp only [Stmt.execIn, watch_plain]; exact step_fits f.loc .normal _ trivial
  | .giveBack none loc, _, h => by
    simp only [Stmt.execIn, watch_plain]; exact step_fits loc _ _ (h.fitsIn.2.1 rfl)
  | .giveBack (some e) loc, _, h => by
    simp only [Stmt.execIn, watch_plain]
    exact .after fun _ => .after fun v => .after fun _ => ensures_pure (h.fitsIn.2.1 rfl)
  | .breakLoop loc, _, h => by
    simp only [Stmt.execIn, watch_plain]; exact step_fits loc .breakLoop _ (h.fitsIn.1 rfl)
  | .continueLoop loc, _, h => by
    simp only [Stmt.execIn, watch_plain]; exact step_fits loc .continueLoop _ (h.fitsIn.1 rfl)
  | .pass loc, _, _ => by
    simp only [Stmt.execIn, watch_plain]; exact step_fits loc .normal _ trivial
  | .global _ loc, _, _ => by
    simp only [Stmt.execIn, watch_plain]; exact .after fun _ => ensures_pure trivial

/-- A block whose statements are placed in `c` ends with a flow that has somewhere to go in `c`. -/
theorem execBlock_fits : (body : List Stmt) → {c : Context} → BlockPlaced c body →
    Ensures (·.FitsIn c) (execBlock call limit body)
  | [], _, _ => by
    simp only [execBlockIn, watch_plain]; exact ensures_pure trivial
  | s :: rest, _, h => by
    obtain ⟨hs, hrest⟩ := List.forall_mem_cons.1 h
    simp only [execBlockIn, watch_plain, atLine_plain]
    refine (s.exec_fits hs).bind fun flow hflow => ?_
    cases flow with
    | normal => exact execBlock_fits rest hrest
    | _ => exact ensures_pure hflow

theorem execBranches_fits {c : Context} {otherwise : Evaluation Flow}
    (hotherwise : Ensures (·.FitsIn c) otherwise) :
    (branches : List Branch) → (∀ b ∈ branches, BlockPlaced c b.body) →
      Ensures (·.FitsIn c) (execBranches call limit otherwise branches)
  | [], _ => by
    simp only [execBranchesIn]; exact hotherwise
  | ⟨condition, body, loc⟩ :: rest, h => by
    obtain ⟨hbody, hrest⟩ := List.forall_mem_cons.1 h
    simp only [execBranchesIn, watch_plain, atLine_plain]
    refine .after fun holds => ?_
    split
    · exact execBlock_fits body hbody
    · exact execBranches_fits hotherwise rest hrest

theorem execOtherwise_fits : (otherwise : Option (List Stmt)) → {c : Context} →
    (∀ body ∈ otherwise, BlockPlaced c body) →
      Ensures (·.FitsIn c) (execOtherwise call limit otherwise)
  | none, _, _ => by
    simp only [execOtherwiseIn]; exact ensures_pure trivial
  | some body, _, h => by
    simp only [execOtherwiseIn]; exact execBlock_fits body (h body rfl)

end

end Statements

/-! ## Runs that pass over no flow -/

section Strict

variable (escaped : Flow → Evaluation Unit) (call : Caller) (limit : Nat)

/-- Executes all statements in order; `escaped` is what is done with a flow that leaves them. -/
def execAll : List Stmt → Evaluation Unit
  | [] => return ()
  | s :: rest => do
    match ← s.exec call limit with
    | .normal => execAll rest
    | flow => escaped flow

/-- The value that the body of a function gives back, `None` if all its statements are executed;
`escaped` is what is done with a flow that leaves it otherwise. -/
def execBody : List Stmt → Evaluation Value
  | [] => return .none
  | s :: rest => do
    match ← s.exec call limit with
    | .normal => execBody rest
    | .giveBack v => return v
    | flow => do
      escaped flow
      return .none

end Strict

/-- Calls whose bodies are executed by `execBody`, and so strictly. -/
def callStrictly (escaped : Flow → Evaluation Unit) (limit : Nat) : Nat → Caller
  | 0 => fun _ _ _ loc => raise .tooManyCalls loc
  | left + 1 => fun f args keywords loc =>
    match f.bindArguments args keywords with
    | .error fault => raise fault loc
    | .ok bindings =>
      inFrame (.ofCall f bindings)
        (execBody escaped (callStrictly escaped limit left) limit f.body)

/-- The execution of `p` that is completed only when all its statements have been executed. -/
def Program.runStrictly (p : Program) (escaped : Flow → Evaluation Unit) (limit : Nat) :
    Execution (Outcome × Machine) :=
  (execAll escaped (callStrictly escaped limit callLimit) limit p.body Machine.start).bind
    fun (result, m) => .ended (Outcome.of (result.map fun _ => .normal) m, m)

theorem Execution.bind_assoc (x : Execution α) (f : α → Execution β) (g : β → Execution γ) :
    (x.bind f).bind g = x.bind fun a => (f a).bind g := by
  induction x with
  | ended a => rfl
  | paused p resume ih =>
    have hresume := funext ih
    simp only [Execution.bind, hresume]

theorem Evaluation.bind_assoc (x : Evaluation α) (f : α → Evaluation β) (g : β → Evaluation γ) :
    (x >>= f) >>= g = x >>= fun a => f a >>= g := by
  funext m
  change ((x m).bind _).bind _ = (x m).bind _
  rw [Execution.bind_assoc]
  congr 1
  funext (r, m)
  cases r <;> rfl

section Strict

variable {escaped : Flow → Evaluation Unit} {call : Caller} {limit : Nat}

theorem execAll_eq (body : List Stmt) :
    execAll escaped call limit body = execBlock call limit body >>= fun flow =>
      match flow with
      | .normal => pure ()
      | flow => escaped flow := by
  induction body with
  | nil => rfl
  | cons s rest ih =>
    rw [execAll, execBlock, execBlockIn, atLine_plain, Evaluation.bind_assoc]
    congr 1
    funext flow
    cases flow with
    | normal => exact ih
    | _ => rfl

/-- What the body of a function gives back when it has ended with this flow; `escaped` takes `break`
and `continue`. -/
def Flow.settle (escaped : Flow → Evaluation Unit) : Flow → Evaluation Value
  | .normal => return .none
  | .giveBack v => return v
  | flow => do
    escaped flow
    return .none

theorem execBody_eq (body : List Stmt) :
    execBody escaped call limit body = execBlock call limit body >>= Flow.settle escaped := by
  induction body with
  | nil => rfl
  | cons s rest ih =>
    rw [execBody, execBlock, execBlockIn, atLine_plain, Evaluation.bind_assoc]
    congr 1
    funext flow
    cases flow with
    | normal => exact ih
    | _ => rfl

/-- Nothing that fits the body of a function is lost when its `frame` is left, so `execBody` comes
to what `execBlock` comes to. -/
theorem inFrame_execBody (frame : Frame) {body : List Stmt} (h : BlockPlaced .ofBody body) :
    inFrame frame (execBody escaped call limit body) =
      inFrame frame (execBlock call limit body) >>= fun flow =>
        match flow with
        | .giveBack v => pure v
        | _ => pure .none := by
  funext m
  have hfits : Ensures (·.FitsIn .ofBody) (execBlock call limit body) := execBlock_fits body h
  rw [execBody_eq]
  change ((execBlock call limit body (m.push frame)).bind _).bind _ =
    ((execBlock call limit body (m.push frame)).bind _).bind _
  rw [Execution.bind_assoc, Execution.bind_assoc]
  refine (hfits (m.push frame)).bind_congr fun (r, m₁) hr => ?_
  cases r with
  | error i => rfl
  | ok flow =>
    have hflow := hr flow rfl
    cases flow with
    | normal | giveBack => rfl
    -- the two sides differ here, but no such flow fits the body of a function
    | breakLoop | continueLoop => cases hflow

end Strict

section Programs

variable {program : List Stmt}

theorem DefinedIn.blockPlaced {f : Function} (hf : DefinedIn program f)
    (hprogram : BlockPlaced .outermost program) : BlockPlaced .ofBody f.body := by
  obtain ⟨around, hf⟩ := hf
  exact (hf.placed hprogram).block List.mem_cons_self

theorem DefinedIn.stands {f : Function} (hf : DefinedIn program f) :
    ∀ s ∈ f.body, ∃ around, Stands program around s := by
  obtain ⟨around, hf⟩ := hf
  exact fun s hs => ⟨_, hf.inside List.mem_cons_self hs⟩

/-- Calls of the program's functions lose no flow, by induction on `left`, the number of calls that
are left. -/
theorem callWithin_agree (hprogram : BlockPlaced .outermost program)
    (escaped : Flow → Evaluation Unit) (limit left : Nat) :
    (callWithin limit left).Agree (DefinedIn program) (·.WellFormed (DefinedIn program))
      (callStrictly escaped limit left) := by
  induction left with
  | zero => exact fun _ _ _ loc _ _ _ => agree_raise _ loc
  | succ left ih =>
    intro f args keywords loc hf hargs hkeywords
    simp only [callIn, watch_plain, inFrame_plain, before_silent, callStrictly]
    cases hbindings : f.bindArguments args keywords with
    | error fault => exact agree_raise fault loc
    | ok bindings =>
      have hframe := Function.wellFormed_bindArguments hargs hkeywords hbindings
      have hI := Machine.invariant_wellFormed (P := DefinedIn program)
      have hbody := execBlock_agree hI limit (fun e => e.eval_agree hI ih) f.body hf.stands
      dsimp only
      -- the body is first brought back to a block, so that both sides execute the same statements
      rw [inFrame_execBody _ (hf.blockPlaced hprogram)]
      refine (agree_inFrame hI (fun _ hm => hm.push hframe) hbody).bind fun flow hflow => ?_
      cases flow with
      | giveBack v => exact agree_pure hflow
      | normal | breakLoop | continueLoop => exact agree_pure trivial

end Programs

namespace Program

theorem run_eq_runStrictly {p : Program} (h : BlockPlaced .outermost p.body)
    (escaped : Flow → Evaluation Unit) (limit : Nat) :
    p.run limit = p.runStrictly escaped limit := by
  have hbody : ∀ s ∈ p.body, ∃ around, Stands p.body around s := fun s hs => ⟨[], .top hs⟩
  have hI := Machine.invariant_wellFormed (P := DefinedIn p.body)
  have hagree := execBlock_agree hI limit
    (fun e => e.eval_agree hI (callWithin_agree h escaped limit callLimit)) p.body hbody
  have hfits : Ensures (·.FitsIn .outermost)
      (execBlock (callStrictly escaped limit callLimit) limit p.body) := execBlock_fits p.body h
  rw [run, runStrictly, (hagree Machine.start Machine.wellFormed_start).1, execAll_eq]
  change _ = ((execBlock _ limit p.body Machine.start).bind _).bind _
  rw [Execution.bind_assoc]
  refine (hfits Machine.start).bind_congr fun result hr => ?_
  obtain ⟨r, m⟩ := result
  cases r with
  | error i => rfl
  | ok flow =>
    rw [Flow.eq_normal_of_fitsIn (hr flow rfl)]
    rfl

/-- In the program `p` of a source text, `break` and `continue` stand in a loop of the same function
or of `p` itself, `return` in a function, and no definition in another. Whatever the `hook` replies,
the block of `p` ends with no flow but `normal`, and the body of a function that `p` defines is not
left by `break` or `continue`. So `run` is `runStrictly`, whatever `escaped` does with other flows:
a run is completed when all statements have been executed, and a call is `None` when its body has
come to its end or has given `None` back. -/
theorem control_contained {source : String} {p : Program} (h : ofSource source = .ok p) :
    (∀ around s, Stands p.body around s →
      (s.leavesTurn → (around.takeWhile (!·.isDefinition)).any (·.isLoop)) ∧
      (s.leavesCall → around.any (·.isDefinition)) ∧
      (s.isDefinition → ¬ around.any (·.isDefinition))) ∧
    (∀ (σ : Type) (hook : Pause → StateM σ Reply) (t : σ) (limit : Nat) (flow : Flow),
      ((execBlock (callWithin limit callLimit) limit p.body Machine.start).drive hook t).1.1 =
        .ok flow → flow = .normal) ∧
    (∀ f, DefinedIn p.body f → ∀ (σ : Type) (hook : Pause → StateM σ Reply) (t : σ)
      (call : Caller) (limit : Nat) (m : Machine) (flow : Flow),
      ((execBlock call limit f.body m).drive hook t).1.1 = .ok flow →
        flow ≠ .breakLoop ∧ flow ≠ .continueLoop) ∧
    (∀ (escaped : Flow → Evaluation Unit) (limit : Nat),
      p.run limit = p.runStrictly escaped limit) := by
  have hplaced := ofSource_placed h
  refine ⟨fun around s hs => ?_, fun σ hook t limit flow hflow => ?_,
    fun f hf σ hook t call limit m flow hflow => ?_, run_eq_runStrictly hplaced⟩
  · have hfits := (hs.placed hplaced).fitsIn
    rw [Stmt.FitsIn, Context.inLoop_within, Context.inFunction_within] at hfits
    exact hfits
  · exact Flow.eq_normal_of_fitsIn ((execBlock_fits p.body hplaced).drive hflow)
  · have hfits : flow.FitsIn .ofBody :=
      (execBlock_fits f.body (hf.blockPlaced hplaced)).drive hflow
    refine ⟨?_, ?_⟩
    · rintro rfl
      cases hfits
    · rintro rfl
      cases hfits

/-- A loop that calls the function `f` and is left by `break`. -/
theorem control_contained_break :
    let f : Function := ⟨"f", [], [.giveBack (some (.bool true ⟨2, 10⟩)) ⟨2, 3⟩], [], ⟨1, 1⟩⟩
    let loop := Stmt.whileLoop (.call (.name "f" ⟨3, 7⟩) [] [] ⟨3, 8⟩) [.breakLoop ⟨4, 3⟩] ⟨3, 1⟩
    let p : Program := ⟨[.define f, loop], ["def f():", "  return True", "while f():", "  break"]⟩
    ofSource "def f():\n  return True\nwhile f():\n  break\n" = .ok p ∧
      Stands p.body [loop] (.breakLoop ⟨4, 3⟩) ∧ [loop].any (·.isLoop) ∧
      DefinedIn p.body f ∧ p.run 2 = p.runStrictly (fun _ => interrupt .unfinished) 2 := by
  intro f loop p
  have hsource : ofSource "def f():\n  return True\nwhile f():\n  break\n" = .ok p := by
    rw [ofSource_of_lexemes (by cbv)]
    rfl
  obtain ⟨hstands, -, -, hrun⟩ := control_contained hsource
  have hbreak : Stands p.body [loop] (.breakLoop ⟨4, 3⟩) :=
    .inside (.top (.tail _ (.head _))) (.head _) (.head _)
  have hloop : [loop].any (·.isLoop) := (hstands _ _ hbreak).1 rfl
  exact ⟨hsource, hbreak, hloop, ⟨[], .top (.head _)⟩, hrun _ 2⟩

end Program

end Stepper
