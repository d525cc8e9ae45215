import Stepper.Expr
import Stepper.Parse

/-!
# Parsing expressions

From the loosest to the tightest: `or`, `and`, `not`, comparisons, `+ -`, `* / // %`, the signs
`+ -`, `**`, and then calls, subscripts and attributes. `**` groups to the right and binds tighter
than a sign on its left; its exponent may carry a sign.

* `Levels`: the parsers one level of nesting further in. A level has room for so many more;
  brackets, signs, `not` and exponents use one, and a chain of operators has room for as many
  links.
* `levels`: the parsers at each room, from the innermost outwards.
* `expression`: an expression with the whole room of `maxNesting` levels.
-/

namespace Stepper

/-- How deep expressions may nest, in levels of `levels`. -/
def maxNesting : Nat := 100

/-- The parsers that an expression uses one level further in: in brackets, after `not`, and after a
sign or `**`. -/
structure Levels where
  /-- A whole expression. -/
  disjunction : Parse Expr
  /-- An operand of `not`. -/
  negation : Parse Expr
  /-- An operand of a sign, or an exponent. -/
  signed : Parse Expr

namespace Parse

/-- Fails with `nestingTooDeep`, since there is no room for a level more. -/
def tooDeep : Parse α :=
  fail .nestingTooDeep

/-- The levels beyond the last: each of them is `tooDeep`. -/
def beyond : Levels := ⟨tooDeep, tooDeep, tooDeep⟩

/-! ## Operators -/

/-- An operator of `+` and `-`. -/
def additiveOp? : Token → Option ArithOp
  | .symbol .plus => some .add
  | .symbol .minus => some .sub
  | _ => none

/-- An operator of `*`, `/`, `//` and `%`. -/
def multiplicativeOp? : Token → Option ArithOp
  | .symbol .star => some .mul
  | .symbol .slash => some .div
  | .symbol .slashSlash => some .floorDiv
  | .symbol .percent => some .mod
  | _ => none

/-- A sign. -/
def sign? : Token → Option UnaryOp
  | .symbol .minus => some .neg
  | .symbol .plus => some .pos
  | _ => none

/-- A comparison of one token that needs no second: not `is`, `in` or `not in`. -/
def compareOp? : Token → Option CompareOp
  | .symbol .equalEqual => some .eq
  | .symbol .notEqual => some .ne
  | .symbol .less => some .lt
  | .symbol .lessEqual => some .le
  | .symbol .greater => some .gt
  | .symbol .greaterEqual => some .ge
  | .keyword .inWord => some .isIn
  | _ => none

/-- Takes a comparison, if there is one: `not` must be followed by `in`, and `is` may be by
`not`. -/
def comparison? : Parse (Option CompareOp) := do
  match ← peek with
  | .keyword .isWord =>
    advance
    return some (if ← acceptKeyword .notWord then .notSame else .same)
  | .keyword .notWord =>
    match ← peekSecond with
    | some (.keyword .inWord) =>
      advance
      advance
      return some .notIn
    | _ => fail .notWithoutIn
  | found =>
    match compareOp? found with
    | some op =>
      advance
      return some op
    | none => return none

/-! ## Chains -/

/-- Operands joined to the left by operators that `join?` recognises, at most `links` of them. -/
def chain (operand : Parse Expr) (join? : Token → Option (Expr → Expr → Location → Expr)) :
    Nat → Expr → Parse Expr
  | 0, left => do
    match join? (← next).token with
    | none => return left
    | some _ =>
      advance
      tooDeep
  | links + 1, left => do
    let found ← next
    match join? found.token with
    | none => return left
    | some join =>
      advance
      let right ← operand
      chain operand join? links (join left right found.loc)

/-- The further links of a comparison: `op operand` as often as it comes. -/
def comparisons (operand : Parse Expr) : List Lexeme → Parse (List (CompareOp × Expr))
  | [] => return []
  | _ :: rounds => do
    match ← comparison? with
    | none => return []
    | some op =>
      let right ← operand
      return (op, right) :: (← comparisons operand rounds)

/-! ## Displays and arguments -/

/-- An entry of a dict display, `key: value`. -/
def entry (value : Parse Expr) : Parse (Expr × Expr) := do
  let key ← value
  expectColon "after dict key"
  return (key, ← value)

/-- The name of a keyword argument, `name=`, if one comes next. -/
def keywordName? : Parse (Option String) := do
  match ← peek, ← peekSecond with
  | .name name, some (.symbol .equal) =>
    advance
    advance
    return some name
  | _, _ => return none

/-- Arguments up to the closing parenthesis, which is left. Keyword arguments come last, and each
name once; `names` are those that have come. -/
def argumentsAfter (value : Parse Expr) :
    List Lexeme → List String → Parse (List Expr × List (String × Expr))
  | [], _ => return ([], [])
  | _ :: rounds, names => do
    if (← peek).isSymbol .rightParen then
      return ([], [])
    let loc ← here
    match ← keywordName? with
    | some name =>
      if names.contains name then
        failAt loc (.repeatedKeyword name)
      let v ← value
      let (args, keywords) ←
        if ← accept .comma then argumentsAfter value rounds (name :: names) else pure ([], [])
      return (args, (name, v) :: keywords)
    | none =>
      if !names.isEmpty then
        fail .positionalAfterKeyword
      let v ← value
      let (args, keywords) ←
        if ← accept .comma then argumentsAfter value rounds names else pure ([], [])
      return (v :: args, keywords)

/-- The arguments of a call, by position and by name, up to the closing parenthesis, which is
left. -/
def arguments (value : Parse Expr) : Parse (List Expr × List (String × Expr)) := do
  argumentsAfter value (← remaining) []

/-- The texts of the string tokens that come next, as one text; they need nothing between them. -/
def adjacentTexts : List Lexeme → Parse String
  | [] => return ""
  | _ :: rounds => do
    match ← peek with
    | .str s =>
      advance
      return s ++ (← adjacentTexts rounds)
    | _ => return ""

/-! ## The levels -/

/-- A literal, a name, a display, or an expression in parentheses. -/
def primary (deeper : Levels) : Parse Expr := do
  let found ← next
  let loc := found.loc
  match found.token with
  | .int n =>
    advance
    return .int n loc
  | .float x =>
    advance
    return .float x loc
  | .str s =>
    advance
    return .str (s ++ (← adjacentTexts (← remaining))) loc
  | .keyword .trueWord =>
    advance
    return .bool true loc
  | .keyword .falseWord =>
    advance
    return .bool false loc
  | .keyword .noneWord =>
    advance
    return .none loc
  | .name name =>
    advance
    return .name name loc
  | .symbol .leftParen =>
    advance
    let e ← deeper.disjunction
    expectRightParen "after expression"
    return e
  | .symbol .leftBracket =>
    advance
    let values ← items .rightBracket deeper.disjunction
    expect .rightBracket "expected ']' to close list"
    return .list values loc
  | .symbol .leftBrace =>
    advance
    let entries ← items .rightBrace (entry deeper.disjunction)
    expect .rightBrace "expected '\x7d' to close dict"
    return .dict entries loc
  | token => fail (.unexpected token)

/-- A call, subscript or attribute of `e`, if one comes next. -/
def postfixed? (deeper : Levels) (e : Expr) : Parse (Option Expr) := do
  let found ← next
  match found.token with
  | .symbol .leftParen =>
    advance
    let (args, keywords) ← arguments deeper.disjunction
    expectRightParen "after function arguments"
    return some (.call e args keywords found.loc)
  | .symbol .leftBracket =>
    advance
    let key ← deeper.disjunction
    expect .rightBracket "expected ']' after index"
    return some (.index e key found.loc)
  | .symbol .dot =>
    advance
    return some (.member e (← identifier) found.loc)
  | _ => return none

/-- Whether the token opens a call, a subscript or an attribute: `(`, `[` or `.`. -/
def opensPostfix : Token → Bool
  | .symbol .leftParen | .symbol .leftBracket | .symbol .dot => true
  | _ => false

/-- Calls, subscripts and attributes of `e`, at most `links` of them. -/
def postfixes (deeper : Levels) : Nat → Expr → Parse Expr
  | 0, e => do
    if opensPostfix (← peek) then tooDeep else return e
  | links + 1, e => do
    match ← postfixed? deeper e with
    | none => return e
    | some e => postfixes deeper links e

/-- A primary with calls, subscripts and attributes, at most `room - 1` of them. -/
def postfixed (room : Nat) (deeper : Levels) : Parse Expr := do
  postfixes deeper (room - 1) (← primary deeper)

/-- A power, `base ** exponent`; its exponent may have signs, and powers group to the right. -/
def power (room : Nat) (deeper : Levels) : Parse Expr := do
  let base ← postfixed room deeper
  let loc ← here
  if ← accept .starStar then
    return .arith .pow base (← deeper.signed) loc
  else
    return base

/-- An operand with signs. Each sign is one level deeper. -/
def signed (room : Nat) (deeper : Levels) : Parse Expr := do
  let found ← next
  match sign? found.token with
  | some op =>
    advance
    return .unary op (← deeper.signed) found.loc
  | none => power room deeper

/-- Products: operands with signs, joined by `*`, `/`, `//` and `%`. -/
def product (room : Nat) (deeper : Levels) : Parse Expr := do
  let first ← signed room deeper
  chain (signed room deeper) (fun t => (multiplicativeOp? t).map .arith) (room - 1) first

/-- Sums: products, joined by `+` and `-`. -/
def sum (room : Nat) (deeper : Levels) : Parse Expr := do
  let first ← product room deeper
  chain (product room deeper) (fun t => (additiveOp? t).map .arith) (room - 1) first

/-- A chain of comparisons of sums, or one sum alone. -/
def comparison (room : Nat) (deeper : Levels) : Parse Expr := do
  let first ← sum room deeper
  match ← comparisons (sum room deeper) (← remaining) with
  | [] => return first
  | rest => return .compare first rest first.loc

/-- A comparison with `not` in front. -/
def negation (room : Nat) (deeper : Levels) : Parse Expr := do
  let loc ← here
  if ← acceptKeyword .notWord then
    return .unary .not (← deeper.negation) loc
  else
    comparison room deeper

/-- Conjunctions: negations, joined by `and`. -/
def conjunction (room : Nat) (deeper : Levels) : Parse Expr := do
  let first ← negation room deeper
  chain (negation room deeper)
    (fun t => if t.isKeyword .andWord then some (.logic .and) else none) (room - 1) first

/-- Disjunctions, which are whole expressions: conjunctions, joined by `or`. -/
def disjunction (room : Nat) (deeper : Levels) : Parse Expr := do
  let first ← conjunction room deeper
  chain (conjunction room deeper)
    (fun t => if t.isKeyword .orWord then some (.logic .or) else none) (room - 1) first

/-- The parsers with room for `room` further levels, given those further in. -/
def levelsOver (room : Nat) (deeper : Levels) : Levels where
  disjunction := disjunction room deeper
  negation := negation room deeper
  signed := signed room deeper

/-- With `room` for so many further levels, the parsers of an expression. -/
def levels : Nat → Levels
  | 0 => levelsOver 0 beyond
  | room + 1 => levelsOver (room + 1) (levels room)

/-- A whole expression. It uses one of the `maxNesting` levels itself. -/
def expression : Parse Expr :=
  (levels (maxNesting - 1)).disjunction

end Parse

end Stepper
