import Stepper.Location
import Stepper.Number.Layout
import Stepper.Text.Quoted

/-!
# Tokens

* `Keyword`, `Symbol`: the reserved words and the operators and marks, each with its spelling.
* `Token`: a literal, a name, a keyword, a symbol, or a layout token: the end of a line, a step of
  the indentation in or out, and the end of the text.
* `Token.describe`: how messages name a token.
* `Lexeme`: a token with the characters it was read from and where they start.
-/

namespace Stepper

/-- The reserved words. -/
inductive Keyword where
  | ifWord | elifWord | elseWord | whileWord | forWord | inWord | defWord | returnWord
  | breakWord | continueWord | passWord | globalWord | andWord | orWord | notWord | isWord
  | trueWord | falseWord | noneWord
  deriving DecidableEq

namespace Keyword

/-- The spelling of a keyword. -/
def text : Keyword → String
  | ifWord => "if"
  | elifWord => "elif"
  | elseWord => "else"
  | whileWord => "while"
  | forWord => "for"
  | inWord => "in"
  | defWord => "def"
  | returnWord => "return"
  | breakWord => "break"
  | continueWord => "continue"
  | passWord => "pass"
  | globalWord => "global"
  | andWord => "and"
  | orWord => "or"
  | notWord => "not"
  | isWord => "is"
  | trueWord => "True"
  | falseWord => "False"
  | noneWord => "None"

/-- Every keyword. -/
def all : List Keyword :=
  [ifWord, elifWord, elseWord, whileWord, forWord, inWord, defWord, returnWord, breakWord,
    continueWord, passWord, globalWord, andWord, orWord, notWord, isWord, trueWord, falseWord,
    noneWord]

/-- The keyword with the spelling `word`. -/
def ofText? (word : String) : Option Keyword :=
  all.find? (·.text == word)

end Keyword

/-- Operators, brackets and other marks. -/
inductive Symbol where
  | plus | minus | star | starStar | slash | slashSlash | percent
  | equalEqual | notEqual | less | lessEqual | greater | greaterEqual
  | equal | plusEqual | minusEqual | starEqual | slashEqual | slashSlashEqual | percentEqual
  | leftParen | rightParen | leftBracket | rightBracket | leftBrace | rightBrace
  | comma | colon | dot | semicolon
  deriving DecidableEq

namespace Symbol

/-- The spelling of a symbol. -/
def text : Symbol → String
  | plus => "+"
  | minus => "-"
  | star => "*"
  | starStar => "**"
  | slash => "/"
  | slashSlash => "//"
  | percent => "%"
  | equalEqual => "=="
  | notEqual => "!="
  | less => "<"
  | lessEqual => "<="
  | greater => ">"
  | greaterEqual => ">="
  | equal => "="
  | plusEqual => "+="
  | minusEqual => "-="
  | starEqual => "*="
  | slashEqual => "/="
  | slashSlashEqual => "//="
  | percentEqual => "%="
  | leftParen => "("
  | rightParen => ")"
  | leftBracket => "["
  | rightBracket => "]"
  | leftBrace => "\x7b"
  | rightBrace => "\x7d"
  | comma => ","
  | colon => ":"
  | dot => "."
  | semicolon => ";"

/-- Whether the symbol opens a bracket. -/
def opens : Symbol → Bool
  | leftParen | leftBracket | leftBrace => true
  | _ => false

/-- Whether the symbol closes a bracket. -/
def closes : Symbol → Bool
  | rightParen | rightBracket | rightBrace => true
  | _ => false

end Symbol

/-- A token of the script language. -/
inductive Token where
  | int (n : Int64)
  | float (x : Float)
  | str (s : String)
  | name (s : String)
  | keyword (k : Keyword)
  | symbol (s : Symbol)
  /-- The end of a line that holds tokens. -/
  | newline
  /-- A line indented deeper than the one before. -/
  | indent
  /-- An indentation that ends. -/
  | dedent
  /-- The end of the text. -/
  | endOfFile
  deriving Inhabited

namespace Token

/-- How messages name the token. -/
def describe : Token → String
  | int n => "integer '" ++ toString n.toInt ++ "'"
  | float x => "float '" ++ FloatLayout.plain.render x ++ "'"
  | str s => "string " ++ Text.display s
  | name s => "identifier '" ++ s ++ "'"
  | keyword k => "'" ++ k.text ++ "'"
  | symbol s => "'" ++ s.text ++ "'"
  | newline => "end of line"
  | indent => "indent"
  | dedent => "dedent"
  | endOfFile => "end of file"

/-- Whether the token is the symbol `s`. -/
def isSymbol (s : Symbol) : Token → Bool
  | symbol t => s = t
  | _ => false

/-- Whether the token is the keyword `k`. -/
def isKeyword (k : Keyword) : Token → Bool
  | keyword l => k = l
  | _ => false

/-- Whether the token is the end of a line. -/
def isNewline : Token → Bool
  | newline => true
  | _ => false

/-- Whether the token is the end of the text. -/
def isEndOfFile : Token → Bool
  | endOfFile => true
  | _ => false

end Token

/-- A `token`, where its first character stands, and the characters it was read from. -/
structure Lexeme where
  token : Token
  loc : Location
  text : List Char
  deriving Inhabited

end Stepper
