import Stepper.Expr.Parser
import Stepper.Stmt

/-!
# Parsing statements

A statement is a compound one, or a line of simple ones with semicolons between them. A block is
the rest of the line after its colon, or the indented lines below it. Statements are read together
with the names that they bind and declare global, which a function definition makes its own.

* `Code`: statements with these names.
* `Context`: whether `break`, `continue` and `return` have something to leave.
* `statement`: a statement with room for so many indented blocks inside one another.
* `statements`: the statements of a whole text.
-/

namespace Stepper

/-- How deep indented blocks may nest: `statement maxBlockDepth` reads a statement of a program. -/
def maxBlockDepth : Nat := 100

/-- Statements, with the names that they bind and declare global in what surrounds them, their
`scope`. -/
structure Code where
  stmts : List Stmt
  scope : Scope

namespace Code

/-- No statements. -/
def empty : Code := ⟨[], .empty⟩

/-- The one statement `s.1`, with its names `s.2`. -/
def single (s : Stmt × Scope) : Code := ⟨[s.1], s.2⟩

/-- The statements of `a` and then those of `b`. -/
protected def append (a b : Code) : Code := ⟨a.stmts ++ b.stmts, a.scope ++ b.scope⟩

instance : Append Code := ⟨Code.append⟩

end Code

/-- What surrounds a statement. -/
structure Context where
  /-- Whether a loop of the same function surrounds it. -/
  inLoop : Bool
  inFunction : Bool

namespace Parse

/-- The operator of an augmented assignment. -/
def augmentOp? : Token → Option ArithOp
  | .symbol .plusEqual => some .add
  | .symbol .minusEqual => some .sub
  | .symbol .starEqual => some .mul
  | .symbol .slashEqual => some .div
  | .symbol .slashSlashEqual => some .floorDiv
  | .symbol .percentEqual => some .mod
  | _ => none

/-- The target that an expression stands for: a name or a subscript. -/
def asTarget : Expr → Parse Target
  | .name name _ => return .name name
  | .index container key _ => return .item container key
  | e => failAt e.loc .notAssignable

/-- Whether no statement follows on this line. -/
def endsStatement : Token → Bool
  | .newline | .symbol .semicolon | .endOfFile => true
  | _ => false

/-- An expression, an assignment or an augmented assignment. -/
def expressionStatement : Parse (Stmt × Scope) := do
  let loc ← here
  let e ← expression
  if ← accept .equal then
    let target ← asTarget e
    let value ← expression
    if (← peek).isSymbol .equal then
      fail .chainedAssignment
    return (.assign target value loc, ⟨target.bound, []⟩)
  else
    match augmentOp? (← peek) with
    | some op =>
      advance
      let target ← asTarget e
      let value ← expression
      return (.augment target op value loc, ⟨target.bound, []⟩)
    | none => return (.expr e loc, .empty)

/-- At most so many names more, each after a `,`. -/
def moreNames : List Lexeme → Parse (List String)
  | [] => return []
  | _ :: rounds => do
    if ← accept .comma then
      let name ← identifier
      return name :: (← moreNames rounds)
    else
      return []

/-- A statement that holds no block; `context` tells whether it may be a `break`, a `continue` or a
`return`. -/
def simpleStatement (context : Context) : Parse (Stmt × Scope) := do
  let found ← next
  match found.token with
  | .keyword .passWord =>
    advance
    return (.pass found.loc, .empty)
  | .keyword .breakWord =>
    advance
    if context.inLoop then return (.breakLoop found.loc, .empty)
    else failAt found.loc .breakOutsideLoop
  | .keyword .continueWord =>
    advance
    if context.inLoop then return (.continueLoop found.loc, .empty)
    else failAt found.loc .continueOutsideLoop
  | .keyword .returnWord =>
    advance
    if !context.inFunction then
      failAt found.loc .returnOutsideFunction
    if endsStatement (← peek) then
      return (.giveBack none found.loc, .empty)
    else
      return (.giveBack (some (← expression)) found.loc, .empty)
  | .keyword .globalWord =>
    advance
    let name ← identifier
    let names := name :: (← moreNames (← remaining))
    return (.global names found.loc, ⟨[], names⟩)
  | _ => expressionStatement

/-- At most so many simple statements more, each after a `;`. A `;` may end the line. -/
def moreSimple (context : Context) : List Lexeme → Parse Code
  | [] => return .empty
  | _ :: rounds => do
    if ← accept .semicolon then
      if endsStatement (← peek) then
        return .empty
      let s ← simpleStatement context
      return .single s ++ (← moreSimple context rounds)
    else
      return .empty

/-- Simple statements up to the end of the line. -/
def simpleLine (context : Context) : Parse Code := do
  let first ← simpleStatement context
  let rest ← moreSimple context (← remaining)
  if !(← peek).isEndOfFile then
    expectIf (·.isNewline) "invalid syntax: expected end of line"
  return .single first ++ rest

/-! ## Blocks -/

/-- Whether the token ends an indented block. -/
def endsBlock : Token → Bool
  | .dedent | .endOfFile => true
  | _ => false

/-- At most so many statements, each by `statement`, up to a token that ends the block, which is
left. -/
def untilEnd (statement : Parse Code) : List Lexeme → Parse Code
  | [] => return .empty
  | _ :: rounds => do
    if endsBlock (← peek) then
      return .empty
    let s ← statement
    return s ++ (← untilEnd statement rounds)

/-- Whether the token is a step of the indentation inwards. -/
def isIndent : Token → Bool
  | .indent => true
  | _ => false

/-- Whether the token is a step of the indentation outwards. -/
def isDedent : Token → Bool
  | .dedent => true
  | _ => false

/-- A block after its header; `place` tells which. The statements of an indented block are read by
`statement?`, which is missing where no further block may be opened. -/
def block (statement? : Option (Context → Parse Code)) (context : Context) (place : String) :
    Parse Code := do
  expectColon place
  if !(← acceptIf (·.isNewline)) then
    simpleLine context
  else
    if !(← acceptIf isIndent) then
      fail .noBlock
    match statement? with
    | none => fail .blocksTooDeep
    | some statement =>
      let body ← untilEnd (statement context) (← remaining)
      let _ ← acceptIf isDedent
      return body

/-! ## Compound statements -/

/-- The arms of a conditional after the first, its last arm, and the names of them all. Their bodies
are read by `block`. -/
def moreBranches (block : String → Parse Code) :
    List Lexeme → Parse (List Branch × Option (List Stmt) × Scope)
  | [] => return ([], none, .empty)
  | _ :: rounds => do
    let loc ← here
    if ← acceptKeyword .elifWord then
      let condition ← expression
      let body ← block "after 'elif' condition"
      let (branches, otherwise, scope) ← moreBranches block rounds
      return (⟨condition, body.stmts, loc⟩ :: branches, otherwise, body.scope ++ scope)
    else if ← acceptKeyword .elseWord then
      let body ← block "after 'else'"
      return ([], some body.stmts, body.scope)
    else
      return ([], none, .empty)

/-- A conditional, after its `if`. -/
def conditional (block : String → Parse Code) (loc : Location) : Parse (Stmt × Scope) := do
  let condition ← expression
  let body ← block "after 'if' condition"
  let (branches, otherwise, scope) ← moreBranches block (← remaining)
  return (.conditional (⟨condition, body.stmts, loc⟩ :: branches) otherwise loc,
    body.scope ++ scope)

/-- A `while` loop, after its `while`. -/
def whileStatement (block : String → Parse Code) (loc : Location) : Parse (Stmt × Scope) := do
  let condition ← expression
  let body ← block "after 'while' condition"
  return (.whileLoop condition body.stmts loc, body.scope)

/-- A `for` loop, after its `for`. -/
def forStatement (block : String → Parse Code) (loc : Location) : Parse (Stmt × Scope) := do
  let var ← identifier
  expectIf (·.isKeyword .inWord) "expected 'in' after loop variable"
  let iterable ← expression
  let body ← block "after 'for' clause"
  return (.forLoop var iterable body.stmts loc, ⟨[var], []⟩ ++ body.scope)

/-- The parameters after those already read, up to the `)`, which is left. -/
def parametersFrom : List Lexeme → List String → Parse (List String)
  | [], params => return params
  | _ :: rounds, params => do
    if (← peek).isSymbol .rightParen then
      return params
    let loc ← here
    let name ← identifier
    if params.contains name then
      failAt loc (.duplicateParameter name)
    if ← accept .comma then
      parametersFrom rounds (params ++ [name])
    else
      return params ++ [name]

/-- A function definition, after its `def`. The names of its body are its own, and it binds none in
what surrounds it: a definition is refused where that would matter. -/
def definition (block : String → Parse Code) (loc : Location) : Parse (Stmt × Scope) := do
  let name ← identifier
  expect .leftParen "expected '(' after function name"
  let params ← parametersFrom (← remaining) []
  expectRightParen "after parameters"
  let body ← block "after function signature"
  return (.define ⟨name, params, body.stmts, body.scope.locals params, loc⟩, .empty)

/-- A statement, with the blocks read by `block`: none for the end of an empty line, and several
for a line of simple ones. -/
def statementWith (block : Context → String → Parse Code) (context : Context) : Parse Code := do
  let found ← next
  match found.token with
  | .indent => fail .unexpectedIndent
  | .dedent => fail .unexpectedDedent
  | .newline =>
    advance
    return .empty
  | .keyword .ifWord =>
    advance
    return .single (← conditional (block context) found.loc)
  | .keyword .whileWord =>
    advance
    return .single (← whileStatement (block { context with inLoop := true }) found.loc)
  | .keyword .forWord =>
    advance
    return .single (← forStatement (block { context with inLoop := true }) found.loc)
  | .keyword .defWord =>
    advance
    if context.inFunction then
      failAt found.loc .nestedFunction
    return .single (← definition (block ⟨false, true⟩) found.loc)
  | .keyword .elifWord | .keyword .elseWord => fail (.noMatchingIf found.token)
  | _ => simpleLine context

/-- A statement with room for so many indented blocks inside one another; `statement 0` has none. -/
def statement : Nat → Context → Parse Code
  | 0 => statementWith (block none)
  | room + 1 => statementWith (block (some (statement room)))

/-- At most so many statements, up to the end of the text. Outside of functions no names are
kept. -/
def statementsFrom : List Lexeme → Parse (List Stmt)
  | [] => return []
  | _ :: rounds => do
    if (← peek).isEndOfFile then
      return []
    let code ← statement maxBlockDepth ⟨false, false⟩
    return code.stmts ++ (← statementsFrom rounds)

/-- The statements of a whole text. -/
def statements : Parse (List Stmt) := do
  statementsFrom (← remaining)

end Parse

end Stepper
