import Stepper.Call
import Stepper.Manner

/-!
# Evaluation of expressions

* `Expr.evalWatched`: the value of an expression, with a watch before every act. Operands are
  evaluated from left to right; `and` and `or` leave out the right one if the left one decides, and
  a comparison leaves out what follows a link that does not hold.
* `Expr.eval`: the value of an expression, without a watch.
-/

namespace Stepper

open Evaluation

/-- The value of `name`; that there is none is a fault at `loc`. -/
def loadName (name : String) (loc : Location) : Evaluation Value := do
  match ← look (·.load name) with
  | .ok v => return v
  | .error fault => raise fault loc

/-- Whether `v` counts as true. -/
def truth (v : Value) : Evaluation Bool :=
  look (·.store.truth v)

/-- Whether a `left` operand of this truth is the result of `op`, so that the right one is not
evaluated. -/
def LogicOp.decided (op : LogicOp) (left : Bool) : Bool :=
  match op with
  | .and => !left
  | .or => left

section Watched

variable (watch : Watch) (call : Caller)

mutual

/-- The value of an expression under `watch`; `call` is how functions of the program are called. -/
def Expr.evalWatched : Expr → Evaluation Value
  | .int n _ => return .int n
  | .float x _ => return .float x
  | .str s _ => return .str s
  | .bool b _ => return .bool b
  | .none _ => return .none
  | .name name loc => watch.before [] (loadName name loc)
  | .list items loc => do
    let values ← evalAllWatched items
    watch.before (values.map .value) (perform (Operation.newList values.toArray) loc)
  | .dict entries loc => do
    let d ← evalEntriesWatched loc .empty entries
    watch.before [.entries d] (perform (Operation.newDict d) loc)
  | .arith op left right loc => do
    let a ← left.evalWatched
    let b ← right.evalWatched
    watch.before [.value a, .value b] (perform (op.apply a b) loc)
  | .logic op left right _ => do
    let a ← left.evalWatched
    if op.decided (← watch.before [.value a] (truth a)) then return a else right.evalWatched
  | .compare first rest loc => do
    let a ← first.evalWatched
    return .bool (← evalLinksWatched loc a rest)
  | .unary op operand loc => do
    let a ← operand.evalWatched
    watch.before [.value a] (perform (op.apply a) loc)
  | .call callee args keywords loc => do
    let f ← callee.evalWatched
    let values ← evalAllWatched args
    let named ← evalKeywordsWatched keywords
    watch.before (.value f :: (values ++ named.map (·.2)).map .value)
      (callValue call f values named loc)
  | .index container key loc => do
    let c ← container.evalWatched
    let k ← key.evalWatched
    watch.before [.value c, .value k] (perform (Operation.getItem c k) loc)
  | .member receiver name loc => do
    let v ← receiver.evalWatched
    watch.before [.value v] (perform (Operation.getMember v name) loc)

/-- The values of the expressions `es`, in their order. -/
def evalAllWatched : (es : List Expr) → Evaluation (List Value)
  | [] => return []
  | e :: rest => do
    let v ← e.evalWatched
    return v :: (← evalAllWatched rest)

/-- The values of arguments by name, in their order. -/
def evalKeywordsWatched : List (String × Expr) → Evaluation Keywords
  | [] => return []
  | (name, e) :: rest => do
    let v ← e.evalWatched
    return (name, v) :: (← evalKeywordsWatched rest)

/-- The dict `d` with entries added to it. A key is checked before its value is evaluated. -/
def evalEntriesWatched (loc : Location) (d : Dict) : List (Expr × Expr) → Evaluation Dict
  | [] => return d
  | (key, value) :: rest => do
    let k ← key.evalWatched
    watch.before [.entries d, .value k] (perform (Operation.checkKey k) loc)
    let v ← value.evalWatched
    evalEntriesWatched loc (d.insert k v) rest

/-- Whether the links of a comparison hold from the operand `left` on. -/
def evalLinksWatched (loc : Location) (left : Value) : List (CompareOp × Expr) → Evaluation Bool
  | [] => return true
  | (op, e) :: rest => do
    let right ← e.evalWatched
    if ← watch.before [.value left, .value right] (perform (op.apply left right) loc) then
      evalLinksWatched loc right rest
    else
      return false

end

end Watched

section Plain

variable (call : Caller)

/-- The value of an expression; `call` is how functions of the program are called. -/
abbrev Expr.eval (e : Expr) : Evaluation Value := e.evalWatched .silent call

/-- The values of the expressions `es`, in their order. -/
abbrev evalAll (es : List Expr) : Evaluation (List Value) := evalAllWatched .silent call es

/-- The values of arguments by name, in their order. -/
abbrev evalKeywords (es : List (String × Expr)) : Evaluation Keywords :=
  evalKeywordsWatched .silent call es

/-- The dict `d` with entries added to it. -/
abbrev evalEntries (loc : Location) (d : Dict) (es : List (Expr × Expr)) : Evaluation Dict :=
  evalEntriesWatched .silent call loc d es

/-- Whether the links of a comparison hold from the operand `left` on. -/
abbrev evalLinks (loc : Location) (left : Value) (es : List (CompareOp × Expr)) :
    Evaluation Bool :=
  evalLinksWatched .silent call loc left es

end Plain

end Stepper
