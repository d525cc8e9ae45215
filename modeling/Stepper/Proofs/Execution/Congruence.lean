import Stepper.Run

/-!
# Relations that every evaluation respects

A property of all executions of a program is proved by showing that it is kept by the few acts of
which evaluations are made. The walk through the syntax is done here, once, for a relation between
two evaluations; a property of one evaluation is a relation that ignores the other.

* `Evaluation.Congruence`: what a relation has to keep so that it holds of expressions.
* `Evaluation.AssignCongruence`: what it has to keep besides, so that it holds of assignments.
* `Evaluation.StmtCongruence`: what it has to keep besides, so that it holds of statements. The two
  sides may allow loops a different number of turns.
* `Evaluation.BlockCongruence`: what it has to keep besides, so that it holds of calls.
* `turns_rel`: the induction over the turns of a loop; `turns_congr` is the case of a relation that
  `pure`, `bind` and `interrupt .unfinished` keep.
* `Expr.eval_rel`, `Stmt.exec_rel`, `callWithin_rel`: the relation holds of an expression, of a
  statement and of a call, evaluated on both sides.
* `body_rel`: so it holds of the body of a program.
-/

namespace Stepper

/-- Of the interrupts `i` only an exception (`.raised e`) changes when it leaves `frame`. -/
theorem Interrupt.leave_eq_iff {frame : Frame} {i j : Interrupt} (hj : ∀ e, j ≠ .raised e) :
    i.leave frame = j ↔ i = j := by
  cases i <;> cases j <;> simp_all [Interrupt.leave]

namespace Evaluation

/-- A relation `R` that the acts of expressions keep. -/
structure Congruence (R : {α : Type} → Evaluation α → Evaluation α → Prop) : Prop where
  pure {α : Type} (a : α) : R (pure a) (pure a)
  bind {α β : Type} {x x' : Evaluation α} {f f' : α → Evaluation β} :
    R x x' → (∀ a, R (f a) (f' a)) → R (x >>= f) (x' >>= f')
  raise {α : Type} (fault : Fault) (loc : Location) :
    R (raise fault loc : Evaluation α) (raise fault loc)
  load (name : String) : R (look (·.load name)) (look (·.load name))
  truth (v : Value) : R (look (·.store.truth v)) (look (·.store.truth v))
  perform {α : Type} (op : Operation α) (loc : Location) : R (perform op loc) (perform op loc)
  write (text : String) : R (modify (·.write text)) (modify (·.write text))

/-- The evaluation `turn` has paused if it ends without a flow (`.ok none`): so has a turn of a loop
after which the loop goes on. -/
def Productive (turn : Evaluation (Option Flow)) : Prop :=
  ∀ m m', turn m ≠ .ended (.ok none, m')

/-- A relation `R` that `bindName` keeps as well, so that assignments keep it. -/
structure AssignCongruence (R : {α : Type} → Evaluation α → Evaluation α → Prop) : Prop
    extends Congruence R where
  bindName (name : String) (value : Value) : R (bindName name value) (bindName name value)

/-- A relation `R` that the acts of statements keep, where loops make at most `limit` turns on one
side and at most `limit'` on the other. -/
structure StmtCongruence (R : {α : Type} → Evaluation α → Evaluation α → Prop)
    (limit limit' : Nat) : Prop extends AssignCongruence R where
  item (walk : Walk) (i : Nat) :
    R (look fun m => walk.item? m.store i) (look fun m => walk.item? m.store i)
  enterLine (loc : Location) : R (enterLine loc) (enterLine loc)
  boundary (loc : Location) : R (boundary loc) (boundary loc)
  turns {turn turn' : Nat → Evaluation (Option Flow)} :
    (∀ i, Productive (turn i)) → (∀ i, R (turn i) (turn' i)) →
      R (turns turn limit 0) (turns turn' limit' 0)

/-- A relation `R` that `inFrame` keeps as well, so that calls keep it. -/
structure BlockCongruence (R : {α : Type} → Evaluation α → Evaluation α → Prop)
    (limit limit' : Nat) : Prop extends StmtCongruence R limit limit' where
  inFrame {α : Type} (frame : Frame) {body body' : Evaluation α} :
    R body body' → R (inFrame frame body) (inFrame frame body')

/-! ## The turns of a loop -/

/-- What follows a turn that has told `flow?`: the loop ends, or goes on with `rest`. -/
def afterTurn (rest : Evaluation Flow) (flow? : Option Flow) : Evaluation Flow :=
  match flow? with
  | some flow => return flow
  | none => rest

/-- Loops are related by `S` if their turns are related by `R`: `S` relates what a turn and the rest
of the loop come to, and loops that have no turns left. The induction is on `left`. -/
theorem turns_rel {R : Evaluation (Option Flow) → Evaluation (Option Flow) → Prop}
    {S : Evaluation Flow → Evaluation Flow → Prop}
    (hunfinished : S (interrupt .unfinished) (interrupt .unfinished))
    (hnext : ∀ {x x' rest rest'}, R x x' → S rest rest' →
      S (x >>= afterTurn rest) (x' >>= afterTurn rest'))
    (turn turn' : Nat → Evaluation (Option Flow)) (h : ∀ i, R (turn i) (turn' i)) (left i : Nat) :
    S (turns turn left i) (turns turn' left i) := by
  induction left generalizing i with
  | zero => exact hunfinished
  | succ left ih => exact hnext (h i) (ih (i + 1))

/-- Loops are related if their turns are, by a relation `R` that `pure` and `bind` keep. -/
theorem turns_congr (R : {α : Type} → Evaluation α → Evaluation α → Prop)
    (hpure : ∀ flow : Flow, R (pure flow) (pure flow))
    (hbind : ∀ {x x' : Evaluation (Option Flow)} {f f' : Option Flow → Evaluation Flow},
      R x x' → (∀ flow?, R (f flow?) (f' flow?)) → R (x >>= f) (x' >>= f'))
    (hunfinished : R (interrupt .unfinished : Evaluation Flow) (interrupt .unfinished))
    (turn turn' : Nat → Evaluation (Option Flow)) (h : ∀ i, R (turn i) (turn' i)) (left i : Nat) :
    R (turns turn left i) (turns turn' left i) := by
  refine turns_rel (R := R) (S := R) hunfinished (fun hx hrest => ?_) turn turn' h left i
  refine hbind hx fun flow? => ?_
  cases flow? with
  | none => exact hrest
  | some flow => exact hpure flow

/-! ## Loops pause in every turn -/

theorem bind_eq_ended {x : Evaluation α} {f : α → Evaluation β} {m m' : Machine} {b : β}
    (h : (x >>= f) m = .ended (.ok b, m')) :
    ∃ a m₁, x m = .ended (.ok a, m₁) ∧ f a m₁ = .ended (.ok b, m') := by
  change (x m).bind _ = _ at h
  cases hx : x m with
  | ended r =>
    obtain ⟨r, m₁⟩ := r
    rw [hx] at h
    cases r with
    | ok a => exact ⟨a, m₁, rfl, h⟩
    | error i => cases h
  | paused p resume => rw [hx] at h; cases h

theorem boundary_ne_ended {loc : Location} {m : Machine} {r : Except Interrupt Unit × Machine} :
    boundary loc m ≠ .ended r := by
  intro h; cases h

end Evaluation

open Evaluation Watch Manner

/-- The calls `call` and `call'` are related by `R`, whatever is called and wherever. -/
def Caller.Rel (R : {α : Type} → Evaluation α → Evaluation α → Prop) (call call' : Caller) : Prop :=
  ∀ f args keywords loc, R (call f args keywords loc) (call' f args keywords loc)

section Expressions

variable {R : {α : Type} → Evaluation α → Evaluation α → Prop} {call call' : Caller}

theorem loadName_rel (h : Congruence R) (name : String) (loc : Location) :
    R (loadName name loc) (loadName name loc) := by
  unfold loadName
  refine h.bind (h.load name) fun r => ?_
  cases r with
  | ok v => exact h.pure v
  | error fault => exact h.raise fault loc

theorem callValue_rel (h : Congruence R) (hcall : Caller.Rel R call call')
    (callee : Value) (args : List Value) (keywords : Keywords) (loc : Location) :
    R (callValue call callee args keywords loc) (callValue call' callee args keywords loc) := by
  cases callee with
  | function f => exact hcall f args keywords loc
  | builtin b =>
    exact h.bind (h.perform _ loc) fun (_, printed) => h.bind (h.write printed) fun _ => h.pure _
  | method receiver m => exact h.perform _ loc
  | _ => exact h.raise _ loc

mutual

/-- By `R`, an expression is related to itself if calls are. The recursion is that of
`Expr.eval`. -/
theorem Expr.eval_rel (h : Congruence R) (hcall : Caller.Rel R call call') :
    (e : Expr) → R (e.eval call) (e.eval call')
  | .int _ _ | .float _ _ | .str _ _ | .bool _ _ | .none _ => by
    simp only [Expr.evalWatched]; exact h.pure _
  | .name name loc => by
    simp only [Expr.evalWatched, before_silent]; exact loadName_rel h name loc
  | .list items loc => by
    simp only [Expr.evalWatched, before_silent]
    exact h.bind (evalAll_rel h hcall items) fun _ => h.perform _ loc
  | .dict entries loc => by
    simp only [Expr.evalWatched, before_silent]
    exact h.bind (evalEntries_rel h hcall loc .empty entries) fun _ => h.perform _ loc
  | .arith op left right loc => by
    simp only [Expr.evalWatched, before_silent]
    exact h.bind (left.eval_rel h hcall) fun _ => h.bind (right.eval_rel h hcall) fun _ =>
      h.perform _ loc
  | .logic op left right _ => by
    simp only [Expr.evalWatched, before_silent]
    refine h.bind (left.eval_rel h hcall) fun a => h.bind (h.truth a) fun holds => ?_
    split
    · exact h.pure a
    · exact right.eval_rel h hcall
  | .compare first rest loc => by
    simp only [Expr.evalWatched]
    exact h.bind (first.eval_rel h hcall) fun a => h.bind (evalLinks_rel h hcall loc a rest)
      fun _ => h.pure _
  | .unary op operand loc => by
    simp only [Expr.evalWatched, before_silent]
    exact h.bind (operand.eval_rel h hcall) fun _ => h.perform _ loc
  | .call callee args keywords loc => by
    simp only [Expr.evalWatched, before_silent]
    exact h.bind (callee.eval_rel h hcall) fun f => h.bind (evalAll_rel h hcall args) fun values =>
      h.bind (evalKeywords_rel h hcall keywords) fun named =>
        callValue_rel h hcall f values named loc
  | .index container key loc => by
    simp only [Expr.evalWatched, before_silent]
    exact h.bind (container.eval_rel h hcall) fun _ => h.bind (key.eval_rel h hcall) fun _ =>
      h.perform _ loc
  | .member receiver name loc => by
    simp only [Expr.evalWatched, before_silent]
    exact h.bind (receiver.eval_rel h hcall) fun _ => h.perform _ loc

theorem evalAll_rel (h : Congruence R) (hcall : Caller.Rel R call call') :
    (es : List Expr) → R (evalAll call es) (evalAll call' es)
  | [] => by
    simp only [evalAllWatched]; exact h.pure _
  | e :: rest => by
    simp only [evalAllWatched]
    exact h.bind (e.eval_rel h hcall) fun _ => h.bind (evalAll_rel h hcall rest) fun _ => h.pure _

theorem evalKeywords_rel (h : Congruence R) (hcall : Caller.Rel R call call') :
    (es : List (String × Expr)) → R (evalKeywords call es) (evalKeywords call' es)
  | [] => by
    simp only [evalKeywordsWatched]; exact h.pure _
  | (_, e) :: rest => by
    simp only [evalKeywordsWatched]
    exact h.bind (e.eval_rel h hcall) fun _ => h.bind (evalKeywords_rel h hcall rest) fun _ =>
      h.pure _

theorem evalEntries_rel (h : Congruence R) (hcall : Caller.Rel R call call')
    (loc : Location) (d : Dict) :
    (es : List (Expr × Expr)) → R (evalEntries call loc d es) (evalEntries call' loc d es)
  | [] => by
    simp only [evalEntriesWatched]; exact h.pure _
  | (key, value) :: rest => by
    simp only [evalEntriesWatched, before_silent]
    exact h.bind (key.eval_rel h hcall) fun k => h.bind (h.perform _ loc) fun _ =>
      h.bind (value.eval_rel h hcall) fun v => evalEntries_rel h hcall loc (d.insert k v) rest

theorem evalLinks_rel (h : Congruence R) (hcall : Caller.Rel R call call')
    (loc : Location) (left : Value) :
    (es : List (CompareOp × Expr)) → R (evalLinks call loc left es) (evalLinks call' loc left es)
  | [] => by
    simp only [evalLinksWatched]; exact h.pure _
  | (op, e) :: rest => by
    simp only [evalLinksWatched, before_silent]
    refine h.bind (e.eval_rel h hcall) fun right => h.bind (h.perform _ loc) fun holds => ?_
    split
    · exact evalLinks_rel h hcall loc right rest
    · exact h.pure _

end

end Expressions

section Statements

variable {R : {α : Type} → Evaluation α → Evaluation α → Prop} {call call' : Caller}
  {limit limit' : Nat}

theorem Target.assign_rel (h : AssignCongruence R)
    (hexpr : ∀ e : Expr, R (e.eval call) (e.eval call')) (loc : Location) (value : Value)
    (target : Target) : R (target.assign call loc value) (target.assign call' loc value) := by
  cases target with
  | name n => exact h.bindName n value
  | item container key =>
    exact h.bind (hexpr container) fun _ => h.bind (hexpr key) fun _ => h.perform _ loc

theorem Target.update_rel (h : AssignCongruence R)
    (hexpr : ∀ e : Expr, R (e.eval call) (e.eval call')) (loc : Location) (op : ArithOp) (e : Expr)
    (target : Target) : R (target.update call loc op e) (target.update call' loc op e) := by
  cases target with
  | name n =>
    exact h.bind (loadName_rel h.toCongruence n loc) fun _ => h.bind (hexpr e) fun _ =>
      h.bind (h.perform _ loc) fun _ => h.bindName n _
  | item container key =>
    exact h.bind (hexpr container) fun _ => h.bind (hexpr key) fun _ =>
      h.bind (h.perform _ loc) fun _ => h.bind (hexpr e) fun _ =>
        h.bind (h.perform _ loc) fun _ => h.perform _ loc

theorem step_rel (h : StmtCongruence R limit limit') (loc : Location) (flow : Flow)
    {act act' : Evaluation Unit} (hact : R act act') : R (step loc flow act) (step loc flow act') :=
  h.bind (h.enterLine loc) fun _ => h.bind hact fun _ => h.bind (h.boundary loc) fun _ =>
    h.pure flow

theorem test_rel (h : StmtCongruence R limit limit')
    (hexpr : ∀ e : Expr, R (e.eval call) (e.eval call')) (condition : Expr) (loc : Location) :
    R (test call condition loc) (test call' condition loc) :=
  h.bind (h.enterLine loc) fun _ => h.bind (hexpr condition) fun v => h.bind (h.truth v) fun _ =>
    h.bind (h.boundary loc) fun _ => h.pure _

theorem test_ne_ended {condition : Expr} {loc : Location} {m m' : Machine} {holds : Bool} :
    test call condition loc m ≠ .ended (.ok holds, m') := by
  intro h
  obtain ⟨_, _, -, h⟩ := bind_eq_ended h
  obtain ⟨_, _, -, h⟩ := bind_eq_ended h
  obtain ⟨_, _, -, h⟩ := bind_eq_ended h
  obtain ⟨_, _, h, -⟩ := bind_eq_ended h
  exact boundary_ne_ended h

/-- A turn of a `while` loop pauses after its test, at the `boundary` of `loc`. -/
theorem productive_while (condition : Expr) (loc : Location) (body : Evaluation Flow) :
    Productive (do
      if ← test call condition loc then
        return (← body).endOfLoop
      else
        return some .normal) := by
  intro m m' h
  obtain ⟨_, _, h, -⟩ := bind_eq_ended h
  exact test_ne_ended h

/-- A turn of a `for` loop pauses after it has bound an item to `var`. -/
theorem productive_for (walk : Walk) (i : Nat) (var : String) (loc : Location)
    (body : Evaluation Flow) :
    Productive (do
      match ← look fun m => walk.item? m.store i with
      | none => return some .normal
      | some item =>
        enterLine loc
        bindName var item
        boundary loc
        return (← body).endOfLoop) := by
  intro m m' h
  obtain ⟨item?, _, -, h⟩ := bind_eq_ended h
  cases item? with
  | none => cases h
  | some item =>
    obtain ⟨_, _, -, h⟩ := bind_eq_ended h
    obtain ⟨_, _, -, h⟩ := bind_eq_ended h
    obtain ⟨_, _, h, -⟩ := bind_eq_ended h
    exact boundary_ne_ended h

mutual

/-- By `R`, a statement is related to itself if expressions are. -/
theorem Stmt.exec_rel (h : StmtCongruence R limit limit')
    (hexpr : ∀ e : Expr, R (e.eval call) (e.eval call')) :
    (s : Stmt) → R (s.exec call limit) (s.exec call' limit')
  | .expr e loc => by
    simp only [Stmt.execIn, watch_plain]
    exact step_rel h loc .normal (h.bind (hexpr e) fun _ => h.pure _)
  | .assign target e loc => by
    simp only [Stmt.execIn, watch_plain]
    exact step_rel h loc .normal (h.bind (hexpr e) fun v =>
      target.assign_rel h.toAssignCongruence hexpr loc v)
  | .augment target op e loc => by
    simp only [Stmt.execIn, watch_plain]
    exact step_rel h loc .normal (target.update_rel h.toAssignCongruence hexpr loc op e)
  | .conditional branches otherwise loc => by
    simp only [Stmt.execIn, watch_plain]
    exact h.bind (h.enterLine loc) fun _ =>
      execBranches_rel h hexpr (execOtherwise_rel h hexpr otherwise) branches
  | .whileLoop condition body loc => by
    simp only [Stmt.execIn, watch_plain]
    refine h.turns (fun _ => productive_while condition loc _) fun _ => ?_
    refine h.bind (test_rel h hexpr condition loc) fun holds => ?_
    cases holds with
    | true => exact h.bind (execBlock_rel h hexpr body) fun _ => h.pure _
    | false => exact h.pure _
  | .forLoop var iterable body loc => by
    simp only [Stmt.execIn, watch_plain]
    refine h.bind (h.enterLine loc) fun _ => h.bind (hexpr iterable) fun v =>
      h.bind (h.perform _ loc) fun walk => h.turns (fun i => productive_for walk i var loc _)
        fun i => ?_
    refine h.bind (h.item walk i) fun item? => ?_
    cases item? with
    | none => exact h.pure _
    | some item =>
      exact h.bind (h.enterLine loc) fun _ => h.bind (h.bindName var item) fun _ =>
        h.bind (h.boundary loc) fun _ => h.bind (execBlock_rel h hexpr body) fun _ => h.pure _
  | .define f => by
    simp only [Stmt.execIn, watch_plain]
    exact step_rel h f.loc .normal (h.bindName f.name _)
  | .giveBack none loc => by
    simp only [Stmt.execIn, watch_plain]
    exact step_rel h loc _ (h.pure ())
  | .giveBack (some e) loc => by
    simp only [Stmt.execIn, watch_plain]
    exact h.bind (h.enterLine loc) fun _ => h.bind (hexpr e) fun _ =>
      h.bind (h.boundary loc) fun _ => h.pure _
  | .breakLoop loc | .continueLoop loc | .pass loc => by
    simp only [Stmt.execIn, watch_plain]
    exact step_rel h loc _ (h.pure ())
  | .global _ loc => by
    simp only [Stmt.execIn, watch_plain]
    exact h.bind (h.enterLine loc) fun _ => h.pure _

/-- By `R`, a block is related to itself if expressions are. -/
theorem execBlock_rel (h : StmtCongruence R limit limit')
    (hexpr : ∀ e : Expr, R (e.eval call) (e.eval call')) :
    (body : List Stmt) → R (execBlock call limit body) (execBlock call' limit' body)
  | [] => by
    simp only [execBlockIn, watch_plain]; exact h.pure _
  | s :: rest => by
    simp only [execBlockIn, watch_plain, atLine_plain]
    refine h.bind (s.exec_rel h hexpr) fun flow => ?_
    cases flow with
    | normal => exact execBlock_rel h hexpr rest
    | _ => exact h.pure _

theorem execBranches_rel (h : StmtCongruence R limit limit')
    (hexpr : ∀ e : Expr, R (e.eval call) (e.eval call')) {otherwise otherwise' : Evaluation Flow}
    (hotherwise : R otherwise otherwise') :
    (branches : List Branch) →
      R (execBranches call limit otherwise branches) (execBranches call' limit' otherwise' branches)
  | [] => by
    simp only [execBranchesIn]; exact hotherwise
  | ⟨condition, body, loc⟩ :: rest => by
    simp only [execBranchesIn, watch_plain, atLine_plain]
    refine h.bind (test_rel h hexpr condition loc) fun holds => ?_
    cases holds with
    | true => exact execBlock_rel h hexpr body
    | false => exact execBranches_rel h hexpr hotherwise rest

theorem execOtherwise_rel (h : StmtCongruence R limit limit')
    (hexpr : ∀ e : Expr, R (e.eval call) (e.eval call')) :
    (otherwise : Option (List Stmt)) →
      R (execOtherwise call limit otherwise) (execOtherwise call' limit' otherwise)
  | none => by
    simp only [execOtherwiseIn]; exact h.pure _
  | some body => by
    simp only [execOtherwiseIn]; exact execBlock_rel h hexpr body

end

/-- Calls are related by `R`, by induction on `left`, the number of calls that are left. -/
theorem callWithin_rel (h : BlockCongruence R limit limit') (left : Nat) :
    Caller.Rel R (callWithin limit left) (callWithin limit' left) := by
  induction left with
  | zero => intro _ _ _ loc; exact h.raise _ loc
  | succ left ih =>
    intro f args keywords loc
    simp only [callIn, inFrame_plain]
    cases f.bindArguments args keywords with
    | error fault => exact h.raise fault loc
    | ok bindings =>
      have hbody := execBlock_rel h.toStmtCongruence (fun e => e.eval_rel h.toCongruence ih)
        f.body
      refine h.bind (h.inFrame _ hbody) fun flow => ?_
      cases flow with
      | giveBack v => exact h.pure v
      | _ => exact h.pure _

/-- The `body` of a program is related to itself by `R`. -/
theorem body_rel (h : BlockCongruence R limit limit') (body : List Stmt) :
    R (execBlock (callWithin limit callLimit) limit body)
      (execBlock (callWithin limit' callLimit) limit' body) :=
  execBlock_rel h.toStmtCongruence
    (fun e => e.eval_rel h.toCongruence (callWithin_rel h callLimit)) body

end Statements

end Stepper
