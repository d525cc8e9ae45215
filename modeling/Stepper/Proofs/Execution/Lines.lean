import Stepper.Proofs.Execution.ControlFlow
import Stepper.Proofs.Stmt.ReadFrom

/-!
# The lines that a run reports

A run shows the line of a statement at each pause, and a traceback shows the line of each frame that
an exception has left. All these lines are good if those of the program's statements and of their
branches are, whatever good means.

* `Machine.AllAt`, `Machine.CallersAt`: the frames are at good lines, or all but the innermost are,
  which comes to its line only with its next statement.
* `Evaluation.Lined`: an evaluation that reports good lines.
* `Stmt.exec_lined`: a statement of the program is lined wherever expressions are.
* `callKnown`: calls of known functions only. In a run these are the calls, as it knows no functions
  but those that the program defines.
* `Program.run_lined`: a run reports good lines.
-/

namespace Stepper

namespace Machine

/-! ## Lines of frames -/

/-- The lines that the frames of `m` are at, that of the program's own frame first. -/
def lines (m : Machine) : List Nat :=
  m.stack.frames.map (·.line)

theorem lines_push (m : Machine) (f : Frame) : (m.push f).lines = m.lines ++ [f.line] := by
  simp [lines, push, CallStack.push, CallStack.frames]

theorem lines_pop {m : Machine} (h : 1 < m.lines.length) : m.pop.lines = m.lines.dropLast := by
  obtain ⟨store, ⟨globals, calls⟩, output⟩ := m
  cases calls with
  | nil => exact absurd h (Nat.lt_irrefl 1)
  | cons top rest =>
    simp [lines, pop, CallStack.pop, CallStack.frames, List.dropLast_cons_of_ne_nil]

theorem lines_enterLine (m : Machine) (line : Nat) :
    (m.enterLine line).lines = m.lines.dropLast ++ [line] := by
  obtain ⟨store, ⟨globals, calls⟩, output⟩ := m
  cases calls with
  | nil => rfl
  | cons top rest =>
    simp [lines, enterLine, CallStack.modifyCurrent, CallStack.frames, List.dropLast_cons_of_ne_nil]

theorem lines_bind (m : Machine) (name : String) (value : Value) :
    (m.bind name value).lines = m.lines := by
  obtain ⟨store, ⟨globals, calls⟩, output⟩ := m
  unfold bind
  split <;> cases calls <;>
    simp [lines, CallStack.modifyCurrent, CallStack.modifyGlobals, CallStack.frames, Frame.set]

theorem frame_line_mem (m : Machine) : m.frame.line ∈ m.lines := by
  obtain ⟨store, ⟨globals, calls⟩, output⟩ := m
  cases calls <;> simp [lines, frame, CallStack.current, CallStack.frames]

/-- In `m`, `d` calls are active, and all frames are at lines that are `good`. -/
structure AllAt (good : Nat → Prop) (d : Nat) (m : Machine) : Prop where
  depth : m.lines.length = d + 1
  lines : ∀ line ∈ m.lines, good line

/-- In `m`, `d` calls are active, and all frames but the innermost are at lines that are `good`. -/
structure CallersAt (good : Nat → Prop) (d : Nat) (m : Machine) : Prop where
  depth : m.lines.length = d + 1
  lines : ∀ line ∈ m.lines.dropLast, good line

variable {good : Nat → Prop} {d : Nat} {m m' : Machine}

theorem AllAt.callersAt (h : AllAt good d m) : CallersAt good d m :=
  ⟨h.depth, fun line hline => h.lines line (List.mem_of_mem_dropLast hline)⟩

theorem AllAt.of_lines_eq (h : AllAt good d m) (hlines : m'.lines = m.lines) : AllAt good d m' :=
  ⟨hlines ▸ h.depth, hlines ▸ h.lines⟩

/-- The frame `f` of a call has not come to a line, and all others are at good ones. -/
theorem AllAt.push (h : AllAt good d m) (f : Frame) : CallersAt good (d + 1) (m.push f) := by
  refine ⟨?_, ?_⟩
  · rw [lines_push, List.length_append, h.depth]
    rfl
  · rw [lines_push, List.dropLast_concat]
    exact h.lines

theorem CallersAt.pop (h : CallersAt good (d + 1) m) : AllAt good d m.pop := by
  have hlines : m.pop.lines = m.lines.dropLast := lines_pop (by rw [h.depth]; omega)
  refine ⟨?_, ?_⟩
  · rw [hlines, List.length_dropLast, h.depth]
    rfl
  · rw [hlines]
    exact h.lines

theorem CallersAt.enterLine (h : CallersAt good d m) {line : Nat} (hline : good line) :
    AllAt good d (m.enterLine line) := by
  refine ⟨?_, ?_⟩
  · rw [lines_enterLine, List.length_append, List.length_dropLast, h.depth]
    rfl
  · rw [lines_enterLine, List.forall_mem_append, List.forall_mem_singleton]
    exact ⟨h.lines, hline⟩

theorem callersAt_start : CallersAt good 0 start :=
  ⟨rfl, nofun⟩

end Machine

open Machine

/-! ## Evaluations that report good lines -/

/-- A result after which the state is one of `K`. The trace of an exception has lines that are
`good`, and so have the frames that it has not left. -/
inductive LinedResult (good : Nat → Prop) (d : Nat) (K : Machine → Prop) :
    Except Interrupt α × Machine → Prop
  | ok {a : α} {m : Machine} : K m → LinedResult good d K (.ok a, m)
  | raised {e : Exception} {m : Machine} : AllAt good d m → (∀ entry ∈ e.trace, good entry.line) →
      LinedResult good d K (.error (.raised e), m)
  | aborted {m : Machine} : LinedResult good d K (.error .aborted, m)
  | unfinished {m : Machine} : LinedResult good d K (.error .unfinished, m)

namespace Evaluation

/-- An evaluation `x` that, where `d` calls are active, pauses only at lines that are `good`, on its
way from states in `K` to states in `K'`. -/
def Lined (good : Nat → Prop) (d : Nat) (K K' : Machine → Prop) (x : Evaluation α) : Prop :=
  ∀ m, K m → (x m).Always (good ·.line) (LinedResult good d K')

section Rules

variable {good : Nat → Prop} {d : Nat} {K K' K'' : Machine → Prop} {x : Evaluation α}

theorem Lined.bind {f : α → Evaluation β} (hx : Lined good d K K' x)
    (hf : ∀ a, Lined good d K' K'' (f a)) : Lined good d K K'' (x >>= f) := by
  intro m hm
  refine (hx m hm).bind fun r hr => ?_
  cases hr with
  | ok hm₁ => exact hf _ _ hm₁
  | raised hall htrace => exact .ended (.raised hall htrace)
  | aborted => exact .ended .aborted
  | unfinished => exact .ended .unfinished

theorem Lined.of_all (h : Lined good d (CallersAt good d) K x) : Lined good d (AllAt good d) K x :=
  fun m hm => h m hm.callersAt

theorem lined_pure (hK : ∀ m, K m → K' m) (a : α) : Lined good d K K' (pure a) :=
  fun m hm => .ended (.ok (hK m hm))

theorem lined_raise (fault : Fault) (loc : Location) :
    Lined good d (AllAt good d) K (raise fault loc : Evaluation α) :=
  fun _ hm => .ended (.raised hm nofun)

theorem lined_look (f : Machine → α) : Lined good d K K (look f) :=
  fun _ hm => .ended (.ok hm)

theorem lined_modify {f : Machine → Machine} (hf : ∀ m, (f m).lines = m.lines) :
    Lined good d (AllAt good d) (AllAt good d) (modify f) :=
  fun m hm => .ended (.ok (hm.of_lines_eq (hf m)))

theorem lined_perform (op : Operation α) (loc : Location) :
    Lined good d (AllAt good d) (AllAt good d) (perform op loc) := by
  intro m hm
  unfold perform
  split
  · exact .ended (.ok (hm.of_lines_eq rfl))
  · exact .ended (.raised (hm.of_lines_eq rfl) nofun)

theorem lined_enterLine {loc : Location} (hloc : good loc.line) :
    Lined good d (CallersAt good d) (AllAt good d) (enterLine loc) :=
  fun _ hm => .ended (.ok (hm.enterLine hloc))

theorem lined_boundary {loc : Location} (hloc : good loc.line) :
    Lined good d (AllAt good d) (AllAt good d) (boundary loc) := by
  intro m hm
  refine .paused hloc fun reply => ?_
  dsimp only
  split
  · exact .ended (.ok (hm.of_lines_eq rfl))
  · exact .ended (.ok (hm.of_lines_eq rfl))
  · exact .ended .aborted

theorem lined_turns {turn : Nat → Evaluation (Option Flow)} (h : ∀ i, Lined good d K K (turn i))
    (left i : Nat) : Lined good d K K (turns turn left i) :=
  turns_congr (fun x _ => Lined good d K K x) (lined_pure fun _ => id) Lined.bind
    (fun _ _ => .ended .unfinished) turn turn h left i

/-- The `frame` of a call is at a good line when an exception leaves it. -/
theorem lined_inFrame (frame : Frame) {body : Evaluation α}
    (h : Lined good (d + 1) (CallersAt good (d + 1)) (CallersAt good (d + 1)) body) :
    Lined good d (AllAt good d) (AllAt good d) (inFrame frame body) := by
  intro m hm
  refine (h (m.push frame) (hm.push frame)).bind fun r hr => ?_
  cases hr with
  | ok hm₁ => exact .ended (.ok hm₁.pop)
  | raised hall htrace =>
    refine .ended (.raised hall.callersAt.pop ?_)
    rw [Exception.leave, List.forall_mem_append, List.forall_mem_singleton]
    exact ⟨htrace, hall.lines _ (frame_line_mem _)⟩
  | aborted => exact .ended .aborted
  | unfinished => exact .ended .unfinished

theorem lined_congruence (good : Nat → Prop) (d : Nat) :
    AssignCongruence (fun x _ => Lined good d (AllAt good d) (AllAt good d) x) where
  pure := lined_pure fun _ => id
  bind := Lined.bind
  raise := lined_raise
  load _ := lined_look _
  truth _ := lined_look _
  perform := lined_perform
  write _ := lined_modify fun _ => rfl
  bindName name value := lined_modify fun m => m.lines_bind name value

end Rules

end Evaluation

open Evaluation Watch Manner

/-! ## Statements -/

section Statements

variable {good : Nat → Prop} {d limit : Nat} {call : Caller} {program : List Stmt}

theorem lined_step {loc : Location} (hloc : good loc.line) (flow : Flow) {act : Evaluation Unit}
    (hact : Lined good d (AllAt good d) (AllAt good d) act) :
    Lined good d (CallersAt good d) (CallersAt good d) (step loc flow act) :=
  (lined_enterLine hloc).bind fun _ => hact.bind fun _ => (lined_boundary hloc).bind fun _ =>
    lined_pure (fun _ hm => hm.callersAt) flow

theorem lined_test (hexpr : ∀ e : Expr, Lined good d (AllAt good d) (AllAt good d) (e.eval call))
    (condition : Expr) {loc : Location} (hloc : good loc.line) :
    Lined good d (CallersAt good d) (CallersAt good d) (test call condition loc) :=
  (lined_enterLine hloc).bind fun _ => (hexpr condition).bind fun _ => (lined_look _).bind fun _ =>
    (lined_boundary hloc).bind fun _ => lined_pure (fun _ hm => hm.callersAt) _

/-- The statements of `program` and their branches are at lines that are `good`. -/
def LinesGood (good : Nat → Prop) (program : List Stmt) : Prop :=
  ∀ around s, Stands program around s → good s.loc.line ∧ ∀ b ∈ s.branches, good b.loc.line

mutual

/-- A statement of `program` comes to its line before it does anything else, so it is `Lined` where
the frame of the statement is not at a good line yet (`CallersAt`). -/
theorem Stmt.exec_lined (hgood : LinesGood good program)
    (hexpr : ∀ e : Expr, Lined good d (AllAt good d) (AllAt good d) (e.eval call)) :
    (s : Stmt) → (∃ around, Stands program around s) →
      Lined good d (CallersAt good d) (CallersAt good d) (s.exec call limit)
  | .expr e loc, ⟨around, h⟩ => by
    simp only [Stmt.execIn, watch_plain]
    exact lined_step (hgood around _ h).1 .normal
      ((hexpr e).bind fun _ => lined_pure (fun _ => id) ())
  | .assign target e loc, ⟨around, h⟩ => by
    simp only [Stmt.execIn, watch_plain]
    exact lined_step (hgood around _ h).1 .normal ((hexpr e).bind fun v =>
      @Target.assign_rel _ call call (lined_congruence good d) hexpr loc v target)
  | .augment target op e loc, ⟨around, h⟩ => by
    simp only [Stmt.execIn, watch_plain]
    exact lined_step (hgood around _ h).1 .normal
      (@Target.update_rel _ call call (lined_congruence good d) hexpr loc op e target)
  | .conditional branches otherwise loc, ⟨around, h⟩ => by
    simp only [Stmt.execIn, watch_plain]
    obtain ⟨hloc, hlines⟩ := hgood around _ h
    refine (lined_enterLine hloc).bind fun _ => Lined.of_all ?_
    have hotherwise : ∀ body ∈ otherwise, ∀ s ∈ body, ∃ around, Stands program around s :=
      fun body hbody s hs =>
        ⟨_, h.inside (List.mem_append_right _ (Option.mem_toList.2 hbody)) hs⟩
    have hbranches : ∀ b ∈ branches, ∀ s ∈ b.body, ∃ around, Stands program around s :=
      fun b hb s hs => ⟨_, h.inside (List.mem_append_left _ (List.mem_map_of_mem hb)) hs⟩
    exact execBranches_lined hgood hexpr (execOtherwise_lined hgood hexpr otherwise hotherwise)
      branches hlines hbranches
  | .whileLoop condition body loc, ⟨around, h⟩ => by
    simp only [Stmt.execIn, watch_plain]
    have hbody := execBlock_lined hgood hexpr body fun s hs =>
      ⟨_, h.inside List.mem_cons_self hs⟩
    refine lined_turns (fun _ => ?_) limit 0
    refine (lined_test hexpr condition (hgood around _ h).1).bind fun holds => ?_
    cases holds with
    | true => exact hbody.bind fun _ => lined_pure (fun _ => id) _
    | false => exact lined_pure (fun _ => id) _
  | .forLoop var iterable body loc, ⟨around, h⟩ => by
    simp only [Stmt.execIn, watch_plain]
    have hloc : good loc.line := (hgood around _ h).1
    have hbody := execBlock_lined hgood hexpr body fun s hs =>
      ⟨_, h.inside List.mem_cons_self hs⟩
    refine (lined_enterLine hloc).bind fun _ => (hexpr iterable).bind fun _ =>
      (lined_perform _ loc).bind fun walk => Lined.of_all (lined_turns (fun i => ?_) limit 0)
    refine (lined_look _).bind fun item? => ?_
    cases item? with
    | none => exact lined_pure (fun _ => id) _
    | some item =>
      exact (lined_enterLine hloc).bind fun _ =>
        ((lined_congruence good d).bindName var item).bind fun _ =>
          (lined_boundary hloc).bind fun _ =>
            Lined.of_all (hbody.bind fun _ => lined_pure (fun _ => id) _)
  | .define f, ⟨around, h⟩ => by
    simp only [Stmt.execIn, watch_plain]
    exact lined_step (hgood around _ h).1 .normal ((lined_congruence good d).bindName f.name _)
  | .giveBack none loc, ⟨around, h⟩ => by
    simp only [Stmt.execIn, watch_plain]
    exact lined_step (hgood around _ h).1 _ (lined_pure (fun _ => id) ())
  | .giveBack (some e) loc, ⟨around, h⟩ => by
    simp only [Stmt.execIn, watch_plain]
    have hloc : good loc.line := (hgood around _ h).1
    exact (lined_enterLine hloc).bind fun _ => (hexpr e).bind fun _ =>
      (lined_boundary hloc).bind fun _ => lined_pure (fun _ hm => hm.callersAt) _
  | .breakLoop loc, ⟨around, h⟩ | .continueLoop loc, ⟨around, h⟩ | .pass loc, ⟨around, h⟩ => by
    simp only [Stmt.execIn, watch_plain]
    exact lined_step (hgood around _ h).1 _ (lined_pure (fun _ => id) ())
  | .global _ loc, ⟨around, h⟩ => by
    simp only [Stmt.execIn, watch_plain]
    exact (lined_enterLine (hgood around _ h).1).bind fun _ =>
      lined_pure (fun _ hm => hm.callersAt) _

theorem execBlock_lined (hgood : LinesGood good program)
    (hexpr : ∀ e : Expr, Lined good d (AllAt good d) (AllAt good d) (e.eval call)) :
    (body : List Stmt) → (∀ s ∈ body, ∃ around, Stands program around s) →
      Lined good d (CallersAt good d) (CallersAt good d) (execBlock call limit body)
  | [], _ => by
    simp only [execBlockIn, watch_plain]; exact lined_pure (fun _ => id) _
  | s :: rest, h => by
    obtain ⟨hs, hrest⟩ := List.forall_mem_cons.1 h
    simp only [execBlockIn, watch_plain, atLine_plain]
    refine (s.exec_lined hgood hexpr hs).bind fun flow => ?_
    cases flow with
    | normal => exact execBlock_lined hgood hexpr rest hrest
    | breakLoop | continueLoop | giveBack _ => exact lined_pure (fun _ => id) _

theorem execBranches_lined (hgood : LinesGood good program)
    (hexpr : ∀ e : Expr, Lined good d (AllAt good d) (AllAt good d) (e.eval call))
    {otherwise : Evaluation Flow}
    (hotherwise : Lined good d (CallersAt good d) (CallersAt good d) otherwise) :
    (branches : List Branch) → (∀ b ∈ branches, good b.loc.line) →
      (∀ b ∈ branches, ∀ s ∈ b.body, ∃ around, Stands program around s) →
      Lined good d (CallersAt good d) (CallersAt good d)
        (execBranches call limit otherwise branches)
  | [], _, _ => by
    simp only [execBranchesIn]; exact hotherwise
  | ⟨condition, body, loc⟩ :: rest, hlines, h => by
    obtain ⟨hloc, hlines⟩ := List.forall_mem_cons.1 hlines
    obtain ⟨hbody, hrest⟩ := List.forall_mem_cons.1 h
    simp only [execBranchesIn, watch_plain, atLine_plain]
    refine (lined_test hexpr condition hloc).bind fun holds => ?_
    cases holds with
    | true => exact execBlock_lined hgood hexpr body hbody
    | false => exact execBranches_lined hgood hexpr hotherwise rest hlines hrest

theorem execOtherwise_lined (hgood : LinesGood good program)
    (hexpr : ∀ e : Expr, Lined good d (AllAt good d) (AllAt good d) (e.eval call)) :
    (otherwise : Option (List Stmt)) →
      (∀ body ∈ otherwise, ∀ s ∈ body, ∃ around, Stands program around s) →
      Lined good d (CallersAt good d) (CallersAt good d) (execOtherwise call limit otherwise)
  | none, _ => by
    simp only [execOtherwiseIn]; exact lined_pure (fun _ => id) _
  | some body, h => by
    simp only [execOtherwiseIn]; exact execBlock_lined hgood hexpr body (h body rfl)

end

end Statements

/-! ## Calls of known functions -/

/-- Calls of functions that are `known`. A call of another one is `unfinished` at once. -/
def callKnown (known : Function → Prop) [DecidablePred known] (limit : Nat) : Nat → Caller
  | 0 => fun _ _ _ loc => raise .tooManyCalls loc
  | left + 1 => fun f args keywords loc =>
    if known f then
      match f.bindArguments args keywords with
      | .error fault => raise fault loc
      | .ok bindings => do
        let body := execBlock (callKnown known limit left) limit f.body
        match ← inFrame (.ofCall f bindings) body with
        | .giveBack v => return v
        | _ => return .none
    else interrupt .unfinished

section Calls

variable {good : Nat → Prop} {program : List Stmt} [DecidablePred (DefinedIn program)]

/-- With well-formed arguments the calls of the functions that `program` defines are those of
`callKnown`, by induction on `left`, the number of calls that are left. -/
theorem callWithin_agree_known (limit left : Nat) :
    (callWithin limit left).Agree (DefinedIn program) (·.WellFormed (DefinedIn program))
      (callKnown (DefinedIn program) limit left) := by
  induction left with
  | zero => exact fun _ _ _ loc _ _ _ => agree_raise _ loc
  | succ left ih =>
    intro f args keywords loc hf hargs hkeywords
    simp only [callIn, watch_plain, inFrame_plain, before_silent, callKnown, if_pos hf]
    cases hbindings : f.bindArguments args keywords with
    | error fault => exact agree_raise fault loc
    | ok bindings =>
      have hframe := Function.wellFormed_bindArguments hargs hkeywords hbindings
      have hI := Machine.invariant_wellFormed (P := DefinedIn program)
      have hbody := execBlock_agree hI limit (fun e => e.eval_agree hI ih) f.body hf.stands
      refine (agree_inFrame hI (fun _ hm => hm.push hframe) hbody).bind fun flow hflow => ?_
      cases flow with
      | giveBack v => exact agree_pure hflow
      | normal | breakLoop | continueLoop => exact agree_pure trivial

/-- Calls of the functions that `program` defines are `Lined` wherever they are made. -/
theorem callKnown_lined (hgood : LinesGood good program) (limit left d : Nat) :
    Caller.Rel (fun x _ => Lined good d (AllAt good d) (AllAt good d) x)
      (callKnown (DefinedIn program) limit left) (callKnown (DefinedIn program) limit left) := by
  induction left generalizing d with
  | zero => exact fun _ _ _ loc => lined_raise .tooManyCalls loc
  | succ left ih =>
    intro f args keywords loc
    simp only [callKnown]
    split
    · rename_i hf
      cases f.bindArguments args keywords with
      | error fault => exact lined_raise fault loc
      | ok bindings =>
        have hexpr (e : Expr) : Lined good (d + 1) (AllAt good (d + 1)) (AllAt good (d + 1))
            (e.eval (callKnown (DefinedIn program) limit left)) :=
          e.eval_rel (lined_congruence good (d + 1)).toCongruence (ih (d + 1))
        -- The frame of the call has not come to a line yet: the body starts in `CallersAt`.
        have hbody : Lined good (d + 1) (CallersAt good (d + 1)) (CallersAt good (d + 1))
            (execBlock (callKnown (DefinedIn program) limit left) limit f.body) :=
          execBlock_lined hgood hexpr f.body hf.stands
        refine (lined_inFrame _ hbody).bind fun flow => ?_
        cases flow with
        | giveBack v => exact lined_pure (fun _ => id) v
        | normal | breakLoop | continueLoop => exact lined_pure (fun _ => id) Value.none
    · exact fun _ _ => .ended .unfinished

end Calls

/-! ## Runs -/

/-- An exception `e` that has left a frame is reported with `entry` above the frames left before. -/
theorem Traceback.entries_leave (e : Exception) (entry : TraceEntry) :
    (ofException (e.leave entry)).entries = (e.trace ++ [entry]).reverse := by
  simp [entries, ofException, Exception.leave]

/-- A run whose statements are at lines that are `good` reports no others, neither at a pause nor in
a traceback. -/
theorem Program.run_lined {good : Nat → Prop} {p : Program} (hgood : LinesGood good p.body)
    (limit : Nat) : (p.run limit).Always (good ·.line) fun r =>
      ∀ e, r.1 = .raised e → ∀ entry ∈ (Traceback.ofException e).entries, good entry.line := by
  classical
  have htop : ∀ s ∈ p.body, ∃ around, Stands p.body around s := fun s hs => ⟨[], .top hs⟩
  have hI := Machine.invariant_wellFormed (P := DefinedIn p.body)
  -- Only functions of the program are called, so `callKnown` can stand for all calls.
  have hagree := execBlock_agree hI limit
    (fun e => e.eval_agree hI (callWithin_agree_known limit callLimit)) p.body htop
  have hexpr (e : Expr) : Lined good 0 (AllAt good 0) (AllAt good 0)
      (e.eval (callKnown (DefinedIn p.body) limit callLimit)) :=
    e.eval_rel (lined_congruence good 0).toCongruence (callKnown_lined hgood limit callLimit 0)
  have hbody : Lined good 0 (CallersAt good 0) (CallersAt good 0)
      (execBlock (callKnown (DefinedIn p.body) limit callLimit) limit p.body) :=
    execBlock_lined hgood hexpr p.body htop
  rw [run, (hagree Machine.start Machine.wellFormed_start).1]
  refine (hbody Machine.start callersAt_start).bind fun r hr => .ended ?_
  intro e he
  cases hr with
  | ok | aborted | unfinished => cases he
  | @raised e₀ m hall htrace =>
    have hglobals : good m.stack.globals.line := hall.lines _ List.mem_cons_self
    obtain rfl : e₀.leave ⟨moduleName, m.stack.globals.line⟩ = e := by
      simpa [Outcome.of] using he
    rw [Traceback.entries_leave]
    intro entry hentry
    rcases List.mem_append.1 (List.mem_reverse.1 hentry) with hentry | hentry
    · exact htrace entry hentry
    · obtain rfl := List.mem_singleton.1 hentry
      exact hglobals

end Stepper
