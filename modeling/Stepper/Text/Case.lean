import Stepper.Text.CaseTables

/-!
# Upper and lower case

* `Text.upper`, `Text.lower`: the full case mappings, in which one character may become several
  (`ß` becomes `SS`).
* A capital sigma becomes `ς` where it ends a word and `σ` elsewhere (`Text.endsWord`).
-/

namespace Stepper.Text

/-- The mapping of `c`, a character above U+007F: by one of the `expansions`, by one of the `runs`,
or to itself. -/
def mapCase (expansions : List (Nat × List Nat)) (runs : List CaseRun) (c : Char) : List Char :=
  match expansions.lookup c.toNat with
  | some points => points.map Char.ofNat
  | none => [((runs.findSome? (·.map? c.toNat)).map Char.ofNat).getD c]

/-- The upper-case form of `c`. -/
def upperChar (c : Char) : List Char :=
  if c.toNat < 0x80 then [c.toUpper] else mapCase upperExpansions upperRuns c

/-- The lower-case form of `c`, wherever it stands. -/
def lowerChar (c : Char) : List Char :=
  if c.toNat < 0x80 then [c.toLower] else mapCase lowerExpansions lowerRuns c

/-- Whether the first character of `cs` that is not ignored for casing is cased. -/
def casedFirst (cs : List Char) : Bool :=
  match cs.dropWhile caseIgnorableSet.contains with
  | [] => false
  | c :: _ => casedSet.contains c

/-- Whether a sigma between `before` (reversed) and `after` ends a word: a cased character comes
before it and none after it. -/
def endsWord (before after : List Char) : Bool :=
  casedFirst before && !casedFirst after

/-- The capital sigma. -/
def capitalSigma : Char := 'Σ'

/-- The lower-case form of what remains, after the characters `before` (reversed) whose form is
`done` (reversed). -/
def lowerFrom (before done : List Char) : List Char → List Char
  | [] => done.reverse
  | c :: rest =>
    let mapped :=
      if c = capitalSigma then [if endsWord before rest then 'ς' else 'σ'] else lowerChar c
    lowerFrom (c :: before) (mapped.reverse ++ done) rest

/-- The text `s` in upper case. -/
def upper (s : String) : String :=
  String.ofList (s.toList.flatMap upperChar)

/-- The text `s` in lower case. -/
def lower (s : String) : String :=
  String.ofList (lowerFrom [] [] s.toList)

end Stepper.Text
