import Stepper.Expr

/-!
# Statements and functions

* `Target`: what an assignment assigns to: a name, or an item of a container.
* `Stmt`, `Branch`, `Function`: statements, the arms of a conditional, and function definitions.
* `Scope`: the names that statements bind, and those that they declare to be global.
* `Scope.locals`: the names of a function's own frame: its parameters, and what its body binds and
  nowhere declares global.
-/

namespace Stepper

/-- What an assignment assigns to. -/
inductive Target where
  | name (name : String)
  | item (container key : Expr)

mutual

/-- A statement. -/
inductive Stmt where
  | expr (e : Expr) (loc : Location)
  | assign (target : Target) (value : Expr) (loc : Location)
  | augment (target : Target) (op : ArithOp) (value : Expr) (loc : Location)
  | conditional (branches : List Branch) (otherwise : Option (List Stmt)) (loc : Location)
  | whileLoop (condition : Expr) (body : List Stmt) (loc : Location)
  | forLoop (var : String) (iterable : Expr) (body : List Stmt) (loc : Location)
  | define (f : Function)
  | giveBack (value : Option Expr) (loc : Location)
  | breakLoop (loc : Location)
  | continueLoop (loc : Location)
  | pass (loc : Location)
  | global (names : List String) (loc : Location)

/-- An arm of a conditional: a condition and the block that it guards. -/
structure Branch where
  condition : Expr
  body : List Stmt
  loc : Location

/-- A function definition. No two definitions of a program stand at the same `loc`. -/
structure Function where
  name : String
  params : List String
  body : List Stmt
  /-- The names of the function's own frame. -/
  locals : List String
  loc : Location

end

/-- The place of a statement. -/
def Stmt.loc : Stmt → Location
  | expr _ loc | assign _ _ loc | augment _ _ _ loc | conditional _ _ loc | whileLoop _ _ loc
  | forLoop _ _ _ loc | giveBack _ loc | breakLoop loc | continueLoop loc | pass loc
  | global _ loc => loc
  | define f => f.loc

/-- The name that an assignment to the target binds; `item` binds none. -/
def Target.bound : Target → List String
  | .name n => [n]
  | .item _ _ => []

/-- Names that statements bind, `assigned`, and names that they declare to be global. -/
structure Scope where
  assigned : List String
  globals : List String

namespace Scope

/-- No names. -/
def empty : Scope := ⟨[], []⟩

/-- The names of `a` and of `b`. -/
protected def append (a b : Scope) : Scope :=
  ⟨a.assigned ++ b.assigned, a.globals ++ b.globals⟩

instance : Append Scope := ⟨Scope.append⟩

/-- The names of the frame of a function with parameters `params` and the names `s` in its body.
Parameters stay local even where they are declared global. -/
def locals (params : List String) (s : Scope) : List String :=
  (params ++ s.assigned.filter (!s.globals.contains ·)).eraseDups

end Scope

/-- Whether `name` belongs to the frame of `f`. -/
def Function.isLocal (f : Function) (name : String) : Bool :=
  f.locals.contains name

end Stepper
