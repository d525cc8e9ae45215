/-!
# Blank characters, trimming and lines

* `Text.isBlank`: the property White_Space.
* `Text.trim`: a text without the blanks around it.
* `Text.words`: the maximal runs of characters that are not blank.
* `Text.lines`: the lines of a text, without their ends.
-/

namespace Stepper.Text

/-- Whether `c` has the property `White_Space`. -/
def isBlank (c : Char) : Bool :=
  let n := c.toNat
  if n < 0x80 then n == 0x20 || (9 ≤ n && n ≤ 13)
  else
    n == 0x85 || n == 0xA0 || n == 0x1680 || (0x2000 ≤ n && n ≤ 0x200A) || n == 0x2028 ||
      n == 0x2029 || n == 0x202F || n == 0x205F || n == 0x3000

/-- The characters without those at the start that satisfy `p`, and without those at the end. -/
def trimBoth (p : Char → Bool) (cs : List Char) : List Char :=
  ((cs.dropWhile p).reverse.dropWhile p).reverse

/-- The text `s` without the blanks at its start and end. -/
def trim (s : String) : String :=
  String.ofList (trimBoth isBlank s.toList)

/-- The text `s` without the blanks at its start. -/
def trimStart (s : String) : String :=
  String.ofList (s.toList.dropWhile isBlank)

/-- The runs of characters that are not blank, after the run in progress (reversed). -/
def wordsFrom : List Char → List Char → List (List Char)
  | [], [] => []
  | current, [] => [current.reverse]
  | current, c :: rest =>
    if isBlank c then
      if current.isEmpty then wordsFrom [] rest else current.reverse :: wordsFrom [] rest
    else
      wordsFrom (c :: current) rest

/-- The maximal runs of characters of `s` that are not blank, in order. -/
def words (s : String) : List String :=
  (wordsFrom [] s.toList).map String.ofList

/-- A finished line, read backwards: a carriage return before the line feed is not part of it. -/
def finishLine : List Char → List Char
  | '\r' :: rest => rest.reverse
  | line => line.reverse

/-- The lines of a text, after the line in progress (reversed). -/
def linesFrom : List Char → List Char → List (List Char)
  | [], [] => []
  | current, [] => [current.reverse]
  | current, c :: rest =>
    if c = '\n' then finishLine current :: linesFrom [] rest else linesFrom (c :: current) rest

/-- The lines of `s`. A line ends at a line feed, or at a carriage return and a line feed; the last
line needs no end, and there is no empty line after the last end. -/
def lines (s : String) : List String :=
  (linesFrom [] s.toList).map String.ofList

end Stepper.Text
