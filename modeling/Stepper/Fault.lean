import Stepper.Value.Compare

/-!
# Faults

* `Fault`: what can go wrong while a program runs, with what the message tells about it.
* `Fault.kind`, `Fault.message`: the kind of exception that a script sees, and its text.
-/

namespace Stepper

/-- The kinds of exceptions. -/
inductive ExceptionKind where
  | nameError | unboundLocalError | typeError | zeroDivisionError | indexError | keyError
  | valueError | attributeError | overflowError | recursionError
  deriving DecidableEq

namespace ExceptionKind

/-- The name of a kind. -/
def name : ExceptionKind → String
  | nameError => "NameError"
  | unboundLocalError => "UnboundLocalError"
  | typeError => "TypeError"
  | zeroDivisionError => "ZeroDivisionError"
  | indexError => "IndexError"
  | keyError => "KeyError"
  | valueError => "ValueError"
  | attributeError => "AttributeError"
  | overflowError => "OverflowError"
  | recursionError => "RecursionError"

/-- All kinds. -/
def all : List ExceptionKind :=
  [nameError, unboundLocalError, typeError, zeroDivisionError, indexError, keyError, valueError,
    attributeError, overflowError, recursionError]

/-- The kind that is called `name`. -/
def ofName? (name : String) : Option ExceptionKind :=
  all.find? (·.name == name)

end ExceptionKind

/-- The operations that have no result for a divisor of zero. -/
inductive ZeroDivision where
  | quotient | floorQuotient | remainder
  | floatQuotient | floatFloorQuotient | floatRemainder
  /-- A negative power of zero. -/
  | power

/-- The text of a division by zero. -/
def ZeroDivision.message : ZeroDivision → String
  | quotient => "division by zero"
  | floorQuotient => "integer division or modulo by zero"
  | remainder => "integer modulo by zero"
  | floatQuotient => "float division by zero"
  | floatFloorQuotient => "float floor division by zero"
  | floatRemainder => "float modulo by zero"
  | power => "0.0 cannot be raised to a negative power"

/-- What an index points into. -/
inductive Indexed where
  | list | text | range
  /-- A list one of whose items is replaced. -/
  | listAssignment

namespace Indexed

/-- The name of what is indexed. -/
def noun : Indexed → String
  | list | listAssignment => "list"
  | text => "string"
  | range => "range"

/-- What is said to be out of range. -/
def phrase : Indexed → String
  | list => "list"
  | text => "string"
  | range => "range object"
  | listAssignment => "list assignment"

end Indexed

/-- What can go wrong while a program runs. -/
inductive Fault where
  | undefinedName (name : String)
  /-- A name of the function's own frame that is not bound yet. -/
  | unboundLocal (name : String)
  | unsupportedOperands (op : ArithOp) (left right : Kind)
  | unsupportedOperand (op : UnaryOp) (operand : Kind)
  | notOrdered (op : CompareOp) (left right : Kind)
  | noMembership (container : Kind)
  | notTextInText (member : Kind)
  | notIterable (value : Kind)
  | notSubscriptable (container : Kind)
  | noItemAssignment (container : Kind)
  | indexNotInteger (what : Indexed) (key : Kind)
  | unhashable (key : Kind)
  | notCallable (callee : Kind)
  | noAbsoluteValue (value : Kind)
  | noLength (value : Kind)
  | notInteger (value : Kind)
  | notText (role : String) (value : Kind)
  | notNumeric (function : Builtin) (value : Kind)
  | sumOfText
  | nothingToCompare (function : Builtin)
  | itemNotText (index : Nat) (item : Kind)
  | keywordsNotTaken (function : String)
  | printKeyword (name : String)
  | printKeywordNotText (name : String) (value : Kind)
  /-- A builtin that takes from `least` to `most` arguments. -/
  | argumentCount (function : String) (least most given : Nat)
  | tooManyArguments (function : String) (params given : Nat)
  | unknownKeyword (function keyword : String)
  | argumentTwice (function keyword : String)
  | missingArguments (function : String) (names : List String)
  | zeroDivision (operation : ZeroDivision)
  | outOfRange (what : Indexed)
  | popFromEmpty
  | popOutOfRange
  /-- No entry under a key, which is given by its text. -/
  | noKey (key : String)
  | zeroStep
  | notANumber
  | notWholeLiteral (text : String)
  | notFloatLiteral (text : String)
  | emptySeparator
  | nothingIn (function : Builtin)
  | noAttribute (receiver : Kind) (name : String)
  | integerRange
  | tooManyItems (count : Nat)
  | tooManyCalls
  | comparedTooDeep
  | shownTooDeep

namespace Fault

/-- The kind of exception that a script sees. -/
def kind : Fault → ExceptionKind
  | undefinedName _ => .nameError
  | unboundLocal _ => .unboundLocalError
  | zeroDivision _ => .zeroDivisionError
  | outOfRange _ | popFromEmpty | popOutOfRange => .indexError
  | noKey _ => .keyError
  | zeroStep | notANumber | notWholeLiteral _ | notFloatLiteral _ | emptySeparator | nothingIn _ =>
    .valueError
  | noAttribute _ _ => .attributeError
  | integerRange | tooManyItems _ => .overflowError
  | tooManyCalls | comparedTooDeep | shownTooDeep => .recursionError
  | _ => .typeError

/-- The ending of a noun of which there are `n`. -/
def plural (n : Nat) : String :=
  if n = 1 then "" else "s"

/-- The text for a builtin that takes from `least` to `most` arguments. -/
def argumentCountMessage (function : String) (least most given : Nat) : String :=
  if least = most then
    let takes :=
      match least with
      | 0 => "no arguments"
      | 1 => "exactly one argument"
      | n => "exactly " ++ toString n ++ " arguments"
    function ++ "() takes " ++ takes ++ " (" ++ toString given ++ " given)"
  else
    let (bound, n) := if given < least then ("least ", least) else ("most ", most)
    function ++ "() expected at " ++ bound ++ toString n ++ " argument" ++ plural n ++ ", got " ++
      toString given

/-- The text of a fault. -/
def message : Fault → String
  | undefinedName name => "name '" ++ name ++ "' is not defined"
  | unboundLocal name =>
    "cannot access local variable '" ++ name ++ "' where it is not associated with a value"
  | unsupportedOperands op left right =>
    "unsupported operand type(s) for " ++ op.text ++ ": '" ++ left.name ++ "' and '" ++
      right.name ++ "'"
  | unsupportedOperand op operand =>
    "bad operand type for unary " ++ op.text ++ ": '" ++ operand.name ++ "'"
  | notOrdered op left right =>
    "'" ++ op.text ++ "' not supported between instances of '" ++ left.name ++ "' and '" ++
      right.name ++ "'"
  | noMembership container => "argument of type '" ++ container.name ++ "' is not iterable"
  | notTextInText member =>
    "'in <string>' requires string as left operand, not " ++ member.name
  | notIterable value => "'" ++ value.name ++ "' object is not iterable"
  | notSubscriptable container => "'" ++ container.name ++ "' object is not subscriptable"
  | noItemAssignment container =>
    "'" ++ container.name ++ "' object does not support item assignment"
  | indexNotInteger what key => what.noun ++ " indices must be integers, not " ++ key.name
  | unhashable key => "unhashable type: '" ++ key.name ++ "'"
  | notCallable callee => "'" ++ callee.name ++ "' object is not callable"
  | noAbsoluteValue value => "bad operand type for abs(): '" ++ value.name ++ "'"
  | noLength value => "object of type '" ++ value.name ++ "' has no len()"
  | notInteger value => "'" ++ value.name ++ "' object cannot be interpreted as an integer"
  | notText role value => role ++ " must be str, not " ++ value.name
  | notNumeric function value =>
    function.name ++ "() argument must be a string or a real number, not '" ++ value.name ++ "'"
  | sumOfText => "sum() can't sum strings [use ''.join(seq) instead]"
  | nothingToCompare function => function.name ++ " expected at least 1 argument, got 0"
  | itemNotText index item =>
    "sequence item " ++ toString index ++ ": expected str instance, " ++ item.name ++ " found"
  | keywordsNotTaken function => function ++ "() takes no keyword arguments"
  | printKeyword name => "'" ++ name ++ "' is an invalid keyword argument for print()"
  | printKeywordNotText name value => name ++ " must be None or a string, not " ++ value.name
  | argumentCount function least most given => argumentCountMessage function least most given
  | tooManyArguments function params given =>
    function ++ "() takes " ++ toString params ++ " positional argument" ++ plural params ++
      " but " ++ toString given ++ (if given = 1 then " was" else " were") ++ " given"
  | unknownKeyword function keyword =>
    function ++ "() got an unexpected keyword argument '" ++ keyword ++ "'"
  | argumentTwice function keyword =>
    function ++ "() got multiple values for argument '" ++ keyword ++ "'"
  | missingArguments function names =>
    function ++ "() missing " ++ toString names.length ++ " required positional argument" ++
      plural names.length ++ ": " ++ ", ".intercalate (names.map fun n => "'" ++ n ++ "'")
  | zeroDivision operation => operation.message
  | outOfRange what => what.phrase ++ " index out of range"
  | popFromEmpty => "pop from empty list"
  | popOutOfRange => "pop index out of range"
  | noKey key => key
  | zeroStep => "range() arg 3 must not be zero"
  | notANumber => "cannot convert float NaN to integer"
  | notWholeLiteral text => "invalid literal for int() with base 10: " ++ text
  | notFloatLiteral text => "could not convert string to float: " ++ text
  | emptySeparator => "empty separator"
  | nothingIn function => function.name ++ "() arg is an empty sequence"
  | noAttribute receiver name =>
    "'" ++ receiver.name ++ "' object has no attribute '" ++ name ++ "'"
  | integerRange => "integer result out of range"
  | tooManyItems count => "sequence of " ++ toString count ++ " items is too large"
  | tooManyCalls => "maximum recursion depth exceeded"
  | comparedTooDeep => "maximum recursion depth exceeded in comparison"
  | shownTooDeep =>
    "maximum recursion depth exceeded while getting the repr of an object (" ++
      ({} : TooDeep).message ++ ")"

end Fault

end Stepper
