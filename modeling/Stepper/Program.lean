import Stepper.Stmt.Parser
import Stepper.Token.Lexemes

/-!
# Programs

* `Program`: the statements of a source text and its lines.
* `Program.ofSource`: the program of a text, or what is wrong with the text.
-/

namespace Stepper

/-- A program, `body`, and the `lines` of its text. -/
structure Program where
  body : List Stmt
  lines : List String

namespace Program

/-- The line of the text with the number `line`, counted from one, without the blanks around it. -/
def lineText? (p : Program) (line : Nat) : Option String :=
  if line = 0 then none else p.lines[line - 1]?.map Text.trim

/-- The program of the text `source`, or what is wrong with it. -/
def ofSource (source : String) : Except SyntaxError Program := do
  let (body, _) ← Parse.statements.run (← lexemes source.toList)
  return ⟨body, Text.lines source⟩

/-- A text is read in two steps: `lexemes` finds the lexemes `ls`, and `Parse.statements` reads a
program in them or finds the fault. -/
theorem ofSource_of_lexemes {source : String} {ls : List Lexeme}
    (hlex : lexemes source.toList = .ok ls) :
    ofSource source =
      (Parse.statements ls).map fun (body, _) => ⟨body, Text.lines source⟩ := by
  rw [ofSource, hlex]
  change Parse.statements ls >>= _ = _
  cases Parse.statements ls <;> rfl

end Program

end Stepper
