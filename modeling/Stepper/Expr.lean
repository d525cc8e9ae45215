import Stepper.Location

/-!
# Expressions

* `ArithOp`, `LogicOp`, `CompareOp`, `UnaryOp`: the operators, each with its spelling.
* `Expr`: an expression with the places of its parts. A comparison is a chain:
  `a < b <= c` holds if `a < b` and `b <= c`, and evaluates `b` once.
* `Expr.loc`: the place of an expression.
-/

namespace Stepper

/-- Operators on numbers; `+` and `*` also build texts and lists. -/
inductive ArithOp where
  | add | sub | mul | div | floorDiv | mod | pow
  deriving DecidableEq

/-- The spelling of an operator. -/
def ArithOp.text : ArithOp → String
  | add => "+"
  | sub => "-"
  | mul => "*"
  | div => "/"
  | floorDiv => "//"
  | mod => "%"
  | pow => "**"

/-- Operators that may leave their right side unevaluated; they yield one of their operands. -/
inductive LogicOp where
  | and | or
  deriving DecidableEq

/-- The spelling of an operator. -/
def LogicOp.text : LogicOp → String
  | and => "and"
  | or => "or"

/-- Comparisons, tests for membership and tests for identity. -/
inductive CompareOp where
  | eq | ne | lt | le | gt | ge | isIn | notIn | same | notSame
  deriving DecidableEq

/-- The spelling of an operator. -/
def CompareOp.text : CompareOp → String
  | eq => "=="
  | ne => "!="
  | lt => "<"
  | le => "<="
  | gt => ">"
  | ge => ">="
  | isIn => "in"
  | notIn => "not in"
  | same => "is"
  | notSame => "is not"

/-- Operators with one operand. -/
inductive UnaryOp where
  | neg | pos | not
  deriving DecidableEq

/-- The spelling of an operator. -/
def UnaryOp.text : UnaryOp → String
  | neg => "-"
  | pos => "+"
  | not => "not"

/-- An expression, with its place `loc`. An operation stands at its operator, a call or subscript at
its bracket, and a comparison at its first operand. -/
inductive Expr where
  | int (n : Int64) (loc : Location)
  | float (x : Float) (loc : Location)
  | str (s : String) (loc : Location)
  | bool (b : Bool) (loc : Location)
  | none (loc : Location)
  | name (name : String) (loc : Location)
  | list (items : List Expr) (loc : Location)
  | dict (entries : List (Expr × Expr)) (loc : Location)
  | arith (op : ArithOp) (left right : Expr) (loc : Location)
  | logic (op : LogicOp) (left right : Expr) (loc : Location)
  | compare (first : Expr) (rest : List (CompareOp × Expr)) (loc : Location)
  | unary (op : UnaryOp) (operand : Expr) (loc : Location)
  | call (callee : Expr) (args : List Expr) (keywords : List (String × Expr)) (loc : Location)
  | index (container key : Expr) (loc : Location)
  | member (receiver : Expr) (name : String) (loc : Location)

/-- The place of an expression. -/
def Expr.loc : Expr → Location
  | int _ loc | float _ loc | str _ loc | bool _ loc | none loc | name _ loc | list _ loc
  | dict _ loc | arith _ _ _ loc | logic _ _ _ loc | compare _ _ loc | unary _ _ loc
  | call _ _ _ loc | index _ _ loc | member _ _ loc => loc

end Stepper
