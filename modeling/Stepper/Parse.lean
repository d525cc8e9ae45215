import Stepper.SyntaxError

/-!
# Parsers over lexemes

A parser takes lexemes from the front of a list and yields a result and the rest, or an error. The
last lexeme of the list is the end of the text, which no parser takes.

* `Parse.peek`, `Parse.here`: the next token and where it stands.
* `Parse.accept`, `Parse.expect`: take the next token if it is the one in question; if not, leave it
  or fail.
* `Parse.items`: items with commas between them, up to a closing bracket.
-/

namespace Stepper

/-- A parser of lexemes: it takes some of them, or fails with a `SyntaxError`. -/
abbrev Parse (α : Type) := StateT (List Lexeme) (Except SyntaxError) α

namespace Parse

/-- The next lexeme, which is left. Where there is none, it counts as `endOfFile`. -/
def next : Parse Lexeme := fun ls =>
  .ok (ls.headD ⟨.endOfFile, .start, []⟩, ls)

/-- The next token. -/
def peek : Parse Token := do
  return (← next).token

/-- The place of the next token. -/
def here : Parse Location := do
  return (← next).loc

/-- The token after the next one. -/
def peekSecond : Parse (Option Token) := fun ls =>
  .ok (ls[1]?.map (·.token), ls)

/-- Takes the next token, unless it is the end of the text. -/
def advance : Parse Unit := fun ls =>
  match ls with
  | [] => .ok ((), [])
  | l :: rest => .ok ((), if l.token.isEndOfFile then l :: rest else rest)

/-- Fails at `loc`. -/
def failAt (loc : Location) (fault : SyntaxFault) : Parse α := fun _ =>
  .error ⟨fault, loc⟩

/-- Fails at the place of the next token, with `fault`. -/
def fail (fault : SyntaxFault) : Parse α := do
  failAt (← here) fault

/-- Takes the next token if `p` holds of it, and tells whether it did. -/
def acceptIf (p : Token → Bool) : Parse Bool := do
  if p (← peek) then
    advance
    return true
  else
    return false

/-- Takes the next token if it is the symbol `s`, and tells whether it was. -/
def accept (s : Symbol) : Parse Bool :=
  acceptIf (·.isSymbol s)

/-- Takes the next token if it is the keyword `k`, and tells whether it was. -/
def acceptKeyword (k : Keyword) : Parse Bool :=
  acceptIf (·.isKeyword k)

/-- Takes the next token, of which `p` must hold; `what` names what is due. -/
def expectIf (p : Token → Bool) (what : String) : Parse Unit := do
  let found ← peek
  if p found then advance else fail (.expected what found)

/-- Takes the next token, which must be the symbol `s`; `what` is said to be missing if it is
not. -/
def expect (s : Symbol) (what : String) : Parse Unit :=
  expectIf (·.isSymbol s) what

/-- Takes a colon; `place` tells where it is due. -/
def expectColon (place : String) : Parse Unit :=
  expect .colon ("expected ':' " ++ place)

/-- Takes a closing parenthesis; `place` tells where it is due. -/
def expectRightParen (place : String) : Parse Unit :=
  expect .rightParen ("expected ')' " ++ place)

/-- Takes a name. -/
def identifier : Parse String := do
  match ← peek with
  | .name name =>
    advance
    return name
  | found => fail (.expectedName found)

/-- The lexemes that are left. A loop that takes a lexeme in every round gets them as its rounds,
and drops one in each. -/
def remaining : Parse (List Lexeme) := fun ls =>
  .ok (ls, ls)

/-- At most so many items with commas between them, up to the symbol `close`, which is left. A comma
may follow the last item. -/
def itemsUpTo (close : Symbol) (item : Parse α) : List Lexeme → Parse (List α)
  | [] => return []
  | _ :: rounds => do
    if (← peek).isSymbol close then
      return []
    let first ← item
    if ← accept .comma then
      return first :: (← itemsUpTo close item rounds)
    else
      return [first]

/-- Items with commas between them, up to the symbol `close`, which is left. -/
def items (close : Symbol) (item : Parse α) : Parse (List α) := do
  itemsUpTo close item (← remaining)

end Parse

end Stepper
