import Stepper.Json
import Stepper.Text.Quoted

/-!
# Writing JSON

* `Json.render`: the text of a value, without blanks.
-/

namespace Stepper.Json

/-- The character `c` in a string. Quotes, backslashes and control characters are escaped. -/
def escapeChar (c : Char) : List Char :=
  if c = '"' then ['\\', '"']
  else if c = '\\' then ['\\', '\\']
  else if c = '\x08' then ['\\', 'b']
  else if c = '\t' then ['\\', 't']
  else if c = '\n' then ['\\', 'n']
  else if c = '\x0c' then ['\\', 'f']
  else if c = '\r' then ['\\', 'r']
  else if c.toNat < 0x20 then '\\' :: 'u' :: '0' :: '0' :: Text.hexPair c.toNat
  else [c]

/-- The string `s` between its quotes. -/
def stringChars (s : String) : List Char :=
  '"' :: (s.toList.flatMap escapeChar ++ ['"'])

mutual

/-- The characters of a value. -/
def chars : Json → List Char
  | null => "null".toList
  | bool b => (if b then "true" else "false").toList
  | number text => text.toList
  | str s => stringChars s
  | list items => '[' :: (itemsChars items ++ [']'])
  | object entries => '\x7b' :: (entriesChars entries ++ ['\x7d'])

/-- The characters of items, with commas between them. -/
def itemsChars : List Json → List Char
  | [] => []
  | [item] => item.chars
  | item :: rest => item.chars ++ ',' :: itemsChars rest

/-- The characters of entries, with commas between them. -/
def entriesChars : List (String × Json) → List Char
  | [] => []
  | [(key, value)] => stringChars key ++ ':' :: value.chars
  | (key, value) :: rest => stringChars key ++ ':' :: (value.chars ++ ',' :: entriesChars rest)

end

/-- The text of `j`, without blanks. -/
def render (j : Json) : String :=
  String.ofList j.chars

end Stepper.Json
