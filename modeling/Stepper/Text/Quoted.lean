import Stepper.Text.Visible

/-!
# Quoted texts

Two ways to write a text between quotes on one line.

* `Text.literal`: the form of a script value. Single quotes are preferred, and double quotes are
  taken for a text that holds single quotes and no double ones.
* `Text.display`: the form of a string token in a message. It stands between double quotes, and
  every character that does not show by itself is given by its number.
-/

namespace Stepper.Text

/-- The lower-case hexadecimal digit of `n`, which is below 16. -/
def hexDigit (n : Nat) : Char :=
  if n < 10 then Char.ofNat (48 + n) else Char.ofNat (87 + n)

/-- The hexadecimal digits of `n`, without leading zeros. -/
def hexDigits (n : Nat) : List Char :=
  Nat.toDigits 16 n

/-- The number `n`, below 256, in two hexadecimal digits. -/
def hexPair (n : Nat) : List Char :=
  [hexDigit (n / 16), hexDigit (n % 16)]

/-- The quote around the literal of `cs`: the single one, unless it occurs in them and the double
one does not. -/
def literalQuote (cs : List Char) : Char :=
  if cs.contains '\x27' && !cs.contains '"' then '"' else '\x27'

/-- The character `c` inside a literal in `quote`s. The quote, the backslash and the control
characters are escaped, and everything else stands for itself. -/
def literalChar (quote c : Char) : List Char :=
  if c = '\\' then ['\\', '\\']
  else if c = '\n' then ['\\', 'n']
  else if c = '\t' then ['\\', 't']
  else if c = '\r' then ['\\', 'r']
  else if c = quote then ['\\', c]
  else if c.toNat < 0x20 || c.toNat = 0x7F then '\\' :: 'x' :: hexPair c.toNat
  else [c]

/-- The literal of the text `cs`, as characters. -/
def literalChars (cs : List Char) : List Char :=
  let quote := literalQuote cs
  quote :: (cs.flatMap (literalChar quote) ++ [quote])

/-- The literal of `s`. -/
def literal (s : String) : String :=
  String.ofList (literalChars s.toList)

/-- The character `c` inside a displayed text. -/
def displayChar (c : Char) : List Char :=
  if c = '\x00' then ['\\', '0']
  else if c = '\t' then ['\\', 't']
  else if c = '\r' then ['\\', 'r']
  else if c = '\n' then ['\\', 'n']
  else if c = '\\' then ['\\', '\\']
  else if c = '"' then ['\\', '"']
  else if isPrintable c && !isExtendingMark c then [c]
  else '\\' :: 'u' :: '\x7b' :: (hexDigits c.toNat ++ ['\x7d'])

/-- The text `s` as a message shows it. -/
def display (s : String) : String :=
  String.ofList ('"' :: (s.toList.flatMap displayChar ++ ['"']))

end Stepper.Text
