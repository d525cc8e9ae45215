import Stepper.Builtin
import Stepper.Number
import Stepper.Range
import Stepper.Stmt

/-!
# Values

* `Value`: the values of a script. Lists and dicts are given by their place in a store, so that two
  names of one list see each other's changes.
* `Kind`: what kind of value it is, with the name that messages give it.
* `Value.number?`: the number that a value is; `True` and `False` are one and zero.
* `Value.same`: identity. Containers are identical if they have one place, functions if they have
  one definition, and scalars if they are equal; floats, ranges and methods never are.
-/

namespace Stepper

/-- The kinds of values. -/
inductive Kind where
  | none | bool | int | float | str | list | dict | range | function | builtin
  deriving DecidableEq

/-- The name of a kind. -/
def Kind.name : Kind → String
  | none => "NoneType"
  | bool => "bool"
  | int => "int"
  | float => "float"
  | str => "str"
  | list => "list"
  | dict => "dict"
  | range => "range"
  | function => "function"
  | builtin => "builtin_function_or_method"

/-- The kind whose values have the method. -/
def Method.owner : Method → Kind
  | append | pop => .list
  | upper | lower | strip | join | split => .str
  | keys | values | get => .dict

/-- All methods. -/
def Method.all : List Method :=
  [append, pop, upper, lower, strip, join, split, keys, values, get]

/-- The method called `name`, among those of the kind `owner`. -/
def Method.ofName? (owner : Kind) (name : String) : Option Method :=
  all.find? fun m => m.owner = owner && m.name == name

/-- A value. The number of a list or dict is its place in the store. -/
inductive Value where
  | none
  | bool (b : Bool)
  | int (n : Int64)
  | float (x : Float)
  | str (s : String)
  | list (place : Nat)
  | dict (place : Nat)
  | range (r : Range)
  | function (f : Function)
  | builtin (b : Builtin)
  | method (receiver : Value) (m : Method)
  deriving Inhabited

namespace Value

/-- The kind of a value. -/
def kind : Value → Kind
  | none => .none
  | bool _ => .bool
  | int _ => .int
  | float _ => .float
  | str _ => .str
  | list _ => .list
  | dict _ => .dict
  | range _ => .range
  | function _ => .function
  | builtin _ | method _ _ => .builtin

/-- Whether a value can be called. -/
def isCallable : Value → Bool
  | function _ | builtin _ | method _ _ => true
  | _ => false

/-- Whether a value may be a key of a dict: every value that cannot change. -/
def isHashable : Value → Bool
  | list _ | dict _ => false
  | _ => true

/-- The number that a value is. -/
def number? : Value → Option Number
  | bool b => some (.int (if b then 1 else 0))
  | int n => some (.int n)
  | float x => some (.float x)
  | _ => Option.none

/-- The whole number that `v` is; a `bool` is 0 or 1. -/
def integer? (v : Value) : Option Int64 :=
  match v.number? with
  | some (.int n) => some n
  | _ => Option.none

/-- The value of a number. -/
def ofNumber : Number → Value
  | .int n => int n
  | .float x => float x

/-- Whether two values are identical. -/
def same : Value → Value → Bool
  | none, none => true
  | bool a, bool b => a == b
  | int a, int b => a == b
  | str a, str b => a == b
  | list a, list b => a == b
  | dict a, dict b => a == b
  | function f, function g => f.loc == g.loc
  | builtin a, builtin b => a == b
  | _, _ => false

/-- Whether `a` and `b` match as keys of a dict. Numbers match if they are equal, and containers and
methods match nothing. -/
def sameKey (a b : Value) : Bool :=
  match a.number?, b.number? with
  | some m, some n => m.same n
  | _, _ =>
    match a, b with
    | none, none => true
    | str s, str t => s == t
    | range r, range q => r == q
    | function f, function g => f.loc == g.loc
    | builtin f, builtin g => f == g
    | _, _ => false

end Value

end Stepper
