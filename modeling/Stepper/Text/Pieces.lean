/-!
# Searching and splitting texts

* `Text.hasInside`: whether one text occurs inside another.
* `Text.piecesAt`: the pieces between the occurrences of a separator, found from the left.
* `Text.trimOf`: a text without given characters around it.
-/

namespace Stepper.Text

/-- Whether `part` occurs somewhere in the characters. -/
def occursIn (part : List Char) : List Char → Bool
  | [] => part.isEmpty
  | c :: rest => part.isPrefixOf (c :: rest) || occursIn part rest

/-- Whether `part` occurs somewhere in `whole`. The empty text occurs in every text. -/
def hasInside (whole part : String) : Bool :=
  occursIn part.toList whole.toList

/-- The pieces of the characters after the piece in progress (reversed); the first `skip`
characters belong to a separator already found. -/
def piecesFrom (separator : List Char) : Nat → List Char → List Char → List (List Char)
  | _, piece, [] => [piece.reverse]
  | skip + 1, piece, _ :: rest => piecesFrom separator skip piece rest
  | 0, piece, c :: rest =>
    if separator.isPrefixOf (c :: rest) then
      piece.reverse :: piecesFrom separator (separator.length - 1) [] rest
    else
      piecesFrom separator 0 (c :: piece) rest

/-- The pieces of `s` between the occurrences of a separator that is not empty. Occurrences are
found from the left and do not overlap, so there is one piece more than there are occurrences. -/
def piecesAt (separator s : String) : List String :=
  (piecesFrom separator.toList 0 [] s.toList).map String.ofList

/-- The text without the characters of `set` at its start and end. -/
def trimOf (set s : String) : String :=
  let chars := set.toList
  let rest := s.toList.dropWhile (chars.contains ·)
  String.ofList (rest.reverse.dropWhile (chars.contains ·)).reverse

end Stepper.Text
