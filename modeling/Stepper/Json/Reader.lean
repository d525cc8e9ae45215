import Stepper.Json
import Stepper.Json.Magnitude

/-!
# Reading JSON

A reader takes characters from the front of a list and yields a result and the rest, or a fault.

* `JsonFault`: a text that ends too early, or that no value starts with.
* `Json.read`: a value at the front of a text.

Lists and objects are nested at most `Json.depthLimit` deep. A loop gets the characters that are
left as its rounds and drops one in each; each round takes at least one.
-/

namespace Stepper

/-- Why a text is no value. -/
inductive JsonFault where
  /-- More is due where the text ends. -/
  | unfinished
  /-- Something else is due at some place. -/
  | malformed
  deriving DecidableEq

namespace Json

/-- A reader of characters: it takes some of them, or tells a `JsonFault`. -/
abbrev Reader (α : Type) := StateT (List Char) (Except JsonFault) α

namespace Reader

/-- Fails. -/
def fail (fault : JsonFault) : Reader α := fun _ => .error fault

/-- The next character, which is left; `none` at the end. -/
def peek? : Reader (Option Char) := fun cs => .ok (cs.head?, cs)

/-- The next character, which is left; the text must not end here. -/
def peek : Reader Char := fun cs =>
  match cs with
  | [] => .error .unfinished
  | c :: _ => .ok (c, cs)

/-- Takes the next character. -/
def take : Reader Char := fun cs =>
  match cs with
  | [] => .error .unfinished
  | c :: rest => .ok (c, rest)

/-- Takes the characters of a word, each of which must be there. -/
def word : List Char → Reader Unit
  | [] => return
  | c :: rest => do if (← take) = c then word rest else fail .malformed

/-- Takes the characters that satisfy `p`. -/
def takeWhile (p : Char → Bool) : Reader (List Char) := fun cs =>
  .ok (cs.takeWhile p, cs.dropWhile p)

/-- Whether `c` may stand between the parts of a value. -/
def isSpace (c : Char) : Bool :=
  c = ' ' || c = '\n' || c = '\t' || c = '\r'

/-- Takes the blanks. -/
def skipSpace : Reader Unit := fun cs => .ok ((), cs.dropWhile isSpace)

/-- The characters that are left. -/
def remaining : Reader (List Char) := fun cs => .ok (cs, cs)

/-! ## Numbers -/

/-- Takes decimal digits, at least one. -/
def digits : Reader (List Char) := do
  if Text.isAsciiDigit (← peek) then takeWhile Text.isAsciiDigit else fail .malformed

/-- Takes the whole part of a number, which has no zero in front of other digits. -/
def wholePart : Reader (List Char) := do
  let ds ← digits
  if ds.head? = some '0' && 1 < ds.length then fail .malformed else return ds

/-- Takes the fraction of a number, `.` and digits, if it has one. -/
def fraction : Reader (List Char) := do
  if (← peek?) = some '.' then
    let point ← take
    return point :: (← digits)
  else
    return []

/-- Takes the sign of an exponent, `+` or `-`, if it has one. -/
def exponentSign : Reader (List Char) := do
  let c ← peek
  if c = '+' || c = '-' then return [← take] else return []

/-- Takes the exponent of a number, `e` or `E`, a sign and digits, if it has one. -/
def exponent : Reader (List Char) := do
  let c ← peek?
  if c = some 'e' || c = some 'E' then
    let mark ← take
    let sign ← exponentSign
    return mark :: (sign ++ (← digits))
  else
    return []

/-- Takes a minus sign, if there is one. -/
def minus : Reader (List Char) := do
  if (← peek?) = some '-' then return [← take] else return []

/-- Takes a number. It must not be too large (`isTooLarge`). -/
def number : Reader Json := do
  let sign ← minus
  let whole ← wholePart
  let part ← fraction
  let power ← exponent
  if isTooLarge whole (part.drop 1) (exponentOf (power.drop 1)) then fail .malformed
  else return .number (String.ofList (sign ++ whole ++ part ++ power))

/-! ## Strings -/

/-- The value of `c` as a hexadecimal digit. -/
def hexValue? (c : Char) : Option Nat :=
  if Text.isAsciiDigit c then some (c.toNat - 48)
  else if 'a' ≤ c && c ≤ 'f' then some (c.toNat - 87)
  else if 'A' ≤ c && c ≤ 'F' then some (c.toNat - 55)
  else none

/-- The number that the hexadecimal digits `cs` write. -/
def hexNumber? (cs : List Char) : Option Nat :=
  cs.foldlM (fun n c => (hexValue? c).map (16 * n + ·)) 0

/-- Takes four hexadecimal digits. The text ends too early if fewer than four bytes are left. -/
def hexQuad : Reader Nat := fun cs =>
  if (cs.take 4).foldr (fun c n => c.utf8Size + n) 0 < 4 then .error .unfinished
  else
    match hexNumber? (cs.take 4) with
    | some n => .ok (n, cs.drop 4)
    | none => .error .malformed

/-- Takes the second half, `\uXXXX`, of a pair of escapes that stand for one character; its first
half is `high`. -/
def lowHalf (high : Nat) : Reader Char := do
  word ['\\', 'u']
  let low ← hexQuad
  if 0xDC00 ≤ low && low ≤ 0xDFFF then
    return Char.ofNat (0x10000 + (high - 0xD800) * 0x400 + (low - 0xDC00))
  else
    fail .malformed

/-- Takes what follows the `u` of an escape. -/
def unicodeEscape : Reader Char := do
  let n ← hexQuad
  if 0xDC00 ≤ n && n ≤ 0xDFFF then fail .malformed
  else if 0xD800 ≤ n && n ≤ 0xDBFF then lowHalf n
  else return Char.ofNat n

/-- Takes what follows the `\` of an escape. -/
def escape : Reader Char := do
  match ← take with
  | '"' => return '"'
  | '\\' => return '\\'
  | '/' => return '/'
  | 'b' => return '\x08'
  | 'f' => return '\x0c'
  | 'n' => return '\n'
  | 'r' => return '\r'
  | 't' => return '\t'
  | 'u' => unicodeEscape
  | _ => fail .malformed

/-- Takes the rest of a string and its closing quote. Each round takes a character or an escape, so
there are as many as characters are left. -/
def stringRest : List Char → Reader (List Char)
  | [] => fail .unfinished
  | _ :: rounds => do
    let c ← take
    if c = '"' then return []
    else if c = '\\' then
      let decoded ← escape
      return decoded :: (← stringRest rounds)
    else if c.toNat < 0x20 then fail .malformed
    else return c :: (← stringRest rounds)

/-- Takes a string. -/
def string : Reader String := do
  word ['"']
  return String.ofList (← stringRest (← remaining))

/-! ## Lists and objects -/

/-- Takes the items that follow an item, and the closing bracket `close`. -/
def moreItems (item : Reader α) (close : Char) : List Char → Reader (List α)
  | [] => fail .unfinished
  | _ :: rounds => do
    skipSpace
    let c ← take
    if c = close then return []
    else if c = ',' then
      skipSpace
      let first ← item
      return first :: (← moreItems item close rounds)
    else fail .malformed

/-- Takes items with commas between them, each by `item`, and the closing bracket `close`. -/
def items (item : Reader α) (close : Char) : Reader (List α) := do
  skipSpace
  if (← peek) = close then
    let _ ← take
    return []
  else
    let first ← item
    return first :: (← moreItems item close (← remaining))

/-- Takes an entry of an object, `"key": value`. -/
def entry (value : Reader Json) : Reader (String × Json) := do
  if (← peek) ≠ '"' then fail .malformed
  let key ← string
  skipSpace
  word [':']
  return (key, ← value)

/-- Takes a value; `inner` takes the values inside it, if any are allowed. -/
def valueOf (inner : Option (Reader Json)) : Reader Json := do
  skipSpace
  let c ← peek
  if c = 'n' then
    word "null".toList
    return .null
  else if c = 't' then
    word "true".toList
    return .bool true
  else if c = 'f' then
    word "false".toList
    return .bool false
  else if c = '"' then
    return .str (← string)
  else if c = '-' || Text.isAsciiDigit c then
    number
  else if c = '[' then
    let _ ← take
    match inner with
    | some value => return .list (← items value ']')
    | none => fail .malformed
  else if c = '\x7b' then
    let _ ← take
    match inner with
    | some value => return .object (← items (entry value) '\x7d')
    | none => fail .malformed
  else
    fail .malformed

/-- Takes a value that is nested at most so deep. -/
def valueWithin : Nat → Reader Json
  | 0 => valueOf none
  | depth + 1 => valueOf (some (valueWithin depth))

end Reader

/-- The value at the front of `cs`, and what follows it. -/
def read (cs : List Char) : Except JsonFault (Json × List Char) :=
  Reader.valueWithin depthLimit cs

end Json

end Stepper
