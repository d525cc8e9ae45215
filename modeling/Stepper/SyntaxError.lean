import Stepper.Token
import Stepper.Text.Blank

/-!
# Syntax errors

* `SyntaxFault`: what is wrong with a text that is not a program, and `SyntaxFault.message`.
* `SyntaxError`: a fault and where it was found.
* `SyntaxTrace`: an error as it is reported: the line of the text and a caret under the column.
-/

namespace Stepper

/-- What is wrong with a source text. -/
inductive SyntaxFault where
  /-- Two lines whose indentations compare differently with wide and with narrow tabs. -/
  | inconsistentIndentation
  /-- A line indented less than the one before, and like none of those around it. -/
  | unmatchedIndentation
  | unterminatedString
  | loneExclamation
  | strayCharacter (c : Char)
  | integerTooLarge (digits : String)
  | unexpectedIndent
  | unexpectedDedent
  | noMatchingIf (found : Token)
  | breakOutsideLoop
  | continueOutsideLoop
  | returnOutsideFunction
  | nestedFunction
  | duplicateParameter (name : String)
  | chainedAssignment
  | notAssignable
  | noBlock
  | blocksTooDeep
  | nestingTooDeep
  | repeatedKeyword (name : String)
  | positionalAfterKeyword
  | notWithoutIn
  | unexpected (found : Token)
  | expectedName (found : Token)
  /-- Something else was due here; `what` says what and where. -/
  | expected (what : String) (found : Token)

/-- The text of a fault. -/
def SyntaxFault.message : SyntaxFault → String
  | inconsistentIndentation => "inconsistent use of tabs and spaces in indentation"
  | unmatchedIndentation => "unindent does not match any outer indentation level"
  | unterminatedString => "unterminated string literal"
  | loneExclamation => "invalid syntax: '!' must be followed by '='"
  | strayCharacter c => "invalid character '" ++ c.toString ++ "' in source"
  | integerTooLarge digits => "integer literal too large: " ++ digits
  | unexpectedIndent => "unexpected indent"
  | unexpectedDedent => "unexpected unindent"
  | noMatchingIf found => "invalid syntax: " ++ found.describe ++ " without a matching 'if'"
  | breakOutsideLoop => "'break' outside loop"
  | continueOutsideLoop => "'continue' not properly in loop"
  | returnOutsideFunction => "'return' outside function"
  | nestedFunction => "nested function definitions are not supported"
  | duplicateParameter name => "duplicate argument '" ++ name ++ "' in function definition"
  | chainedAssignment => "chained assignment is not supported"
  | notAssignable => "cannot assign to expression"
  | noBlock => "expected an indented block"
  | blocksTooDeep => "too many statically nested blocks"
  | nestingTooDeep => "too many nested parentheses"
  | repeatedKeyword name => "keyword argument repeated: " ++ name
  | positionalAfterKeyword => "positional argument follows keyword argument"
  | notWithoutIn => "invalid syntax: expected 'in' after 'not'"
  | unexpected found => "invalid syntax: unexpected " ++ found.describe
  | expectedName found => "expected identifier, found " ++ found.describe
  | expected what found => what ++ ", found " ++ found.describe

/-- A `fault` and where it was found, `loc`. -/
structure SyntaxError where
  fault : SyntaxFault
  loc : Location

/-- The name that traces give to the source text. -/
def sourceName : String := "<source>"

/-- A syntax error as it is reported, with the line `sourceLine` that it is in. -/
structure SyntaxTrace where
  message : String
  loc : Location
  /-- The line of the location, if the text has it. -/
  sourceLine : Option String

namespace SyntaxTrace

/-- The report of a message at a location of `source`. -/
def of (source : String) (message : String) (loc : Location) : SyntaxTrace where
  message := message
  loc := loc
  sourceLine := if loc.line = 0 then none else (Text.lines source)[loc.line - 1]?

/-- The last line of the trace, `SyntaxError: message`. -/
def summary (t : SyntaxTrace) : String :=
  "SyntaxError: " ++ t.message

/-- The report on one line. -/
def display (t : SyntaxTrace) : String :=
  "Parse error at line " ++ toString t.loc.line ++ ", column " ++ toString t.loc.column ++ ": " ++
    t.message

/-- How many spaces stand before the caret under `line`: the columns left of it, less the blanks
that are not shown. -/
def caretOffset (t : SyntaxTrace) (line : String) : Nat :=
  t.loc.column - 1 - (line.length - (Text.trimStart line).length)

/-- The trace of `t`: the place, the line without the blanks around it, a caret under the column,
and the message. -/
def render (t : SyntaxTrace) : String :=
  let place := "  File \"" ++ sourceName ++ "\", line " ++ toString t.loc.line ++ "\n"
  let shown :=
    match t.sourceLine with
    | none => ""
    | some line =>
      "    " ++ Text.trim line ++ "\n    " ++
        String.ofList (List.replicate (t.caretOffset line) ' ') ++ "^\n"
  place ++ shown ++ t.summary

end SyntaxTrace

/-- The error `e` on one line, as it is reported for a text that is only taken apart into
lexemes. -/
def SyntaxError.lexerDisplay (e : SyntaxError) : String :=
  "Lexer error at line " ++ toString e.loc.line ++ ", column " ++ toString e.loc.column ++ ": " ++
    e.fault.message

/-- The report of an error in `source`. -/
def SyntaxError.trace (e : SyntaxError) (source : String) : SyntaxTrace :=
  SyntaxTrace.of source e.fault.message e.loc

end Stepper
