import Stepper.Expr.Eval

/-!
# Execution of statements

* `Flow`: how a statement ends: the next one follows, or control goes elsewhere.
* `Stmt.execIn`: executes a statement in a manner of running. Every statement pauses once it is
  done; a conditional pauses after each condition instead, a `while` loop after each test and a
  `for` loop after each binding. A declaration of global names is no step and does not pause.
* `callIn`: calls a function in a manner of running, while there are calls left.
* `Stmt.exec`, `callWithin`: the same in the plain manner, which is how programs are run.
-/

namespace Stepper

open Evaluation

/-- How a statement ends. -/
inductive Flow where
  | normal
  | breakLoop
  | continueLoop
  | giveBack (value : Value)

/-- How a loop ends if its body has ended so; `none` if it makes another turn. -/
def Flow.endOfLoop : Flow → Option Flow
  | normal | continueLoop => none
  | breakLoop => some normal
  | giveBack v => some (giveBack v)

/-- What a flow holds. -/
def Flow.held : Flow → List Held
  | giveBack v => [.value v]
  | _ => []

/-- What a `for` loop walks over. -/
inductive Walk where
  /-- A list in the store: items that the body appends are walked over too. -/
  | list (place : Nat)
  | range (r : Range)
  | items (values : Array Value)

/-- The item at a position, if the walk goes that far. The items of a list are those that it has in
`s` when the walk comes there. -/
def Walk.item? (s : Store) : Walk → Nat → Option Value
  | list place, i => (s.list place)[i]?
  | range r, i => if i < r.size then some (.int (r.item i)) else none
  | items values, i => values[i]?

/-- What a walk holds. -/
def Walk.held : Walk → List Held
  | list place => [.value (.list place)]
  | range r => [.value (.range r)]
  | items values => [.values values]

/-- The walk over `v`. Of a list it looks at the items only as it goes. -/
def Operation.walk (v : Value) : Operation Walk :=
  match v with
  | .list place => return .list place
  | .range r => return .range r
  | v => return .items (← items v).toArray

/-- Makes turns, the `turn` at each number from `i`, until one tells how the loop ends, but no more
than are left. -/
def turns (turn : Nat → Evaluation (Option Flow)) : Nat → Nat → Evaluation Flow
  | 0, _ => interrupt .unfinished
  | left + 1, i => do
    match ← turn i with
    | some flow => return flow
    | none => turns turn left (i + 1)

/-- Binds `name` to `value`. -/
def bindName (name : String) (value : Value) : Evaluation Unit :=
  modify (·.bind name value)

section Watched

variable (watch : Watch) (call : Caller)

/-- Comes to a line, under `watch`. -/
def enterLineWatched (loc : Location) : Evaluation Unit :=
  watch.before [] (enterLine loc)

/-- Pauses after a statement at this place, under `watch`. -/
def boundaryWatched (loc : Location) : Evaluation Unit :=
  watch.before [] (boundary loc)

/-- Binds a name, under `watch`. -/
def bindNameWatched (name : String) (value : Value) : Evaluation Unit :=
  watch.before [.value value] (bindName name value)

/-- Assigns `value` to a target. -/
def Target.assignWatched (loc : Location) (value : Value) : Target → Evaluation Unit
  | .name n => bindNameWatched watch n value
  | .item container key => do
    let c ← container.evalWatched watch call
    let k ← key.evalWatched watch call
    watch.before [.value c, .value k, .value value] (perform (Operation.setItem c k value) loc)

/-- Assigns to a target the result of `op` on its value and on that of `e`. The parts of the target
are evaluated once. -/
def Target.updateWatched (loc : Location) (op : ArithOp) (e : Expr) : Target → Evaluation Unit
  | .name n => do
    let current ← watch.before [] (loadName n loc)
    let v ← e.evalWatched watch call
    bindNameWatched watch n
      (← watch.before [.value current, .value v] (perform (op.update current v) loc))
  | .item container key => do
    let c ← container.evalWatched watch call
    let k ← key.evalWatched watch call
    let current ← watch.before [.value c, .value k] (perform (Operation.getItem c k) loc)
    let v ← e.evalWatched watch call
    let updated ← watch.before [.value c, .value k, .value current, .value v]
      (perform (op.update current v) loc)
    watch.before [.value c, .value k, .value updated]
      (perform (Operation.setItem c k updated) loc)

/-- A statement that comes to its line, does `act`, pauses, and ends with `flow`. -/
def stepWatched (loc : Location) (flow : Flow) (act : Evaluation Unit) : Evaluation Flow := do
  enterLineWatched watch loc
  act
  boundaryWatched watch loc
  return flow

/-- Comes to the line of `loc`, evaluates `condition`, pauses, and tells whether it is true. -/
def testWatched (condition : Expr) (loc : Location) : Evaluation Bool := do
  enterLineWatched watch loc
  let v ← condition.evalWatched watch call
  let holds ← watch.before [.value v] (truth v)
  boundaryWatched watch loc
  return holds

end Watched

section InManner

variable (how : Manner) (call : Caller) (limit : Nat)

mutual

/-- Executes a statement; `limit` is how many turns a loop may make. -/
def Stmt.execIn : Stmt → Evaluation Flow
  | .expr e loc => stepWatched how.watch loc .normal do
    let v ← e.evalWatched how.watch call
    how.watch.before [.value v] (return ())
  | .assign target e loc => stepWatched how.watch loc .normal do
    let v ← e.evalWatched how.watch call
    target.assignWatched how.watch call loc v
  | .augment target op e loc =>
    stepWatched how.watch loc .normal (target.updateWatched how.watch call loc op e)
  | .conditional branches otherwise loc => do
    enterLineWatched how.watch loc
    execBranchesIn (execOtherwiseIn otherwise) branches
  | .whileLoop condition body loc =>
    turns (fun _ => do
      if ← testWatched how.watch call condition loc then
        return (← execBlockIn body).endOfLoop
      else
        return some .normal) limit 0
  | .forLoop var iterable body loc => do
    enterLineWatched how.watch loc
    let v ← iterable.evalWatched how.watch call
    let walk ← how.watch.before [.value v] (perform (Operation.walk v) loc)
    turns (fun i => do
      match ← how.watch.before walk.held (look fun m => walk.item? m.store i) with
      | none => return some .normal
      | some item =>
        enterLineWatched how.watch loc
        bindNameWatched how.watch var item
        boundaryWatched how.watch loc
        return (← execBlockIn body).endOfLoop) limit 0
  | .define f =>
    stepWatched how.watch f.loc .normal (bindNameWatched how.watch f.name (.function f))
  | .giveBack none loc => stepWatched how.watch loc (.giveBack .none) (pure ())
  | .giveBack (some e) loc => do
    enterLineWatched how.watch loc
    let v ← e.evalWatched how.watch call
    how.watch.before [.value v] (boundary loc)
    return .giveBack v
  | .breakLoop loc => stepWatched how.watch loc .breakLoop (pure ())
  | .continueLoop loc => stepWatched how.watch loc .continueLoop (pure ())
  | .pass loc => stepWatched how.watch loc .normal (pure ())
  | .global _ loc => do
    enterLineWatched how.watch loc
    return .normal

/-- Executes statements in order, each at its line, until control goes elsewhere. -/
def execBlockIn : List Stmt → Evaluation Flow
  | [] => how.watch.before [] (return .normal)
  | s :: rest => do
    match ← how.atLine s.loc s.execIn with
    | .normal => execBlockIn rest
    | flow => how.watch.before flow.held (return flow)

/-- Executes the first arm whose condition is true; if there is none, `otherwise` follows. -/
def execBranchesIn (otherwise : Evaluation Flow) : List Branch → Evaluation Flow
  | [] => otherwise
  | ⟨condition, body, loc⟩ :: rest => do
    if ← how.atLine loc (testWatched how.watch call condition loc) then execBlockIn body
    else execBranchesIn otherwise rest

/-- Executes the last arm of a conditional, if there is one. -/
def execOtherwiseIn : Option (List Stmt) → Evaluation Flow
  | none => return .normal
  | some body => execBlockIn body

end

end InManner

/-- The most calls that are active at once. -/
def callLimit : Nat := 64

/-- Calls a function, if there are calls left. The call has the value that the body gives back, and
`None` if it gives back nothing. -/
def callIn (how : Manner) (limit : Nat) : Nat → Caller
  | 0 => fun _ _ _ loc => raise .tooManyCalls loc
  | left + 1 => fun f args keywords loc => do
    match f.bindArguments args keywords with
    | .error fault => raise fault loc
    | .ok bindings =>
      let body := execBlockIn how (callIn how limit left) limit f.body
      match ← how.inFrame (.ofCall f bindings) body with
      | .giveBack v => how.watch.before [.value v] (return v)
      | _ => how.watch.before [] (return .none)

/-! ## The plain manner -/

section Plain

variable (call : Caller) (limit : Nat)

/-- Assigns a value to a target. -/
abbrev Target.assign (loc : Location) (value : Value) (target : Target) : Evaluation Unit :=
  target.assignWatched .silent call loc value

/-- Assigns the result of an operator on the value of a target and that of an expression. -/
abbrev Target.update (loc : Location) (op : ArithOp) (e : Expr) (target : Target) :
    Evaluation Unit :=
  target.updateWatched .silent call loc op e

/-- A statement that comes to its line, does `act`, pauses, and ends with `flow`. -/
abbrev step (loc : Location) (flow : Flow) (act : Evaluation Unit) : Evaluation Flow :=
  stepWatched .silent loc flow act

/-- Comes to a line, evaluates a condition, pauses, and tells whether the condition is true. -/
abbrev test (condition : Expr) (loc : Location) : Evaluation Bool :=
  testWatched .silent call condition loc

/-- Executes a statement; `limit` is how many turns a loop may make. -/
abbrev Stmt.exec (s : Stmt) : Evaluation Flow := s.execIn .plain call limit

/-- Executes statements in order, until control goes elsewhere. -/
abbrev execBlock (body : List Stmt) : Evaluation Flow := execBlockIn .plain call limit body

/-- Executes the first arm whose condition is true; if there is none, `otherwise` follows. -/
abbrev execBranches (otherwise : Evaluation Flow) (branches : List Branch) : Evaluation Flow :=
  execBranchesIn .plain call limit otherwise branches

/-- Executes the last arm of a conditional, if there is one. -/
abbrev execOtherwise (otherwise : Option (List Stmt)) : Evaluation Flow :=
  execOtherwiseIn .plain call limit otherwise

end Plain

/-- Calls a function, if there are calls left. -/
abbrev callWithin (limit left : Nat) : Caller := callIn .plain limit left

end Stepper
