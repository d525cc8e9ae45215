/-!
# Builtin functions and methods

* `Builtin`: the functions that every program can call, and their names.
* `Method`: the functions that belong to a value, and their names.
-/

namespace Stepper

/-- A function that every program can call. -/
inductive Builtin where
  | print | len | range | str | repr | int | float | bool | abs | min | max | sum | type
  deriving DecidableEq

namespace Builtin

/-- The name of a function. -/
def name : Builtin → String
  | print => "print"
  | len => "len"
  | range => "range"
  | str => "str"
  | repr => "repr"
  | int => "int"
  | float => "float"
  | bool => "bool"
  | abs => "abs"
  | min => "min"
  | max => "max"
  | sum => "sum"
  | type => "type"

/-- All functions. -/
def all : List Builtin :=
  [print, len, range, str, repr, int, float, bool, abs, min, max, sum, type]

/-- The function that a program calls by `name`. -/
def ofName? (name : String) : Option Builtin :=
  all.find? (·.name == name)

end Builtin

/-- A function that belongs to a list, a text or a dict. -/
inductive Method where
  | append | pop
  | upper | lower | strip | join | split
  | keys | values | get
  deriving DecidableEq

namespace Method

/-- The name of a method. -/
def name : Method → String
  | append => "append"
  | pop => "pop"
  | upper => "upper"
  | lower => "lower"
  | strip => "strip"
  | join => "join"
  | split => "split"
  | keys => "keys"
  | values => "values"
  | get => "get"

end Method

end Stepper
