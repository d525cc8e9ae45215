import Stepper.Token.Indent
import Stepper.Token.Scan

/-!
# Lexemes of a source text

* `LexState`: where one stands within a text: the open indentations and brackets, and the place.
* `lexemes`: the lexemes of a text. The last one is the end of the text, after the end of the last
  line and of all indentations. Inside brackets line ends and indentation do not count, and
  neither do lines that hold nothing but blanks and a comment.
-/

namespace Stepper

/-- Where a lexer stands within a text. -/
structure LexState where
  /-- The open indentations, the innermost first. -/
  levels : List Indent
  /-- The brackets that are open. -/
  depth : Nat
  /-- Whether there is a token after which the line has not ended yet. -/
  lineOpen : Bool
  loc : Location

namespace LexState

/-- Before the first character. -/
def start : LexState := ⟨[], 0, false, .start⟩

/-- The state after `text`, which is skipped. -/
def skip (st : LexState) (text : List Char) : LexState :=
  { st with loc := st.loc.after text }

/-- The number of open brackets after a token: a closing bracket without an opening one counts for
nothing. -/
def depthAfter (st : LexState) : Token → Nat
  | .symbol s => if s.opens then st.depth + 1 else if s.closes then st.depth - 1 else st.depth
  | _ => st.depth

/-- The state after the token of `s`. -/
def afterToken (st : LexState) (s : Scanned Token) : LexState :=
  { st with depth := st.depthAfter s.value, lineOpen := true, loc := st.loc.after s.text }

/-- The lexemes at the end of the text: the end of an open line, the end of the open indentations,
and the end itself, all at `st.loc`. -/
def finish (st : LexState) : List Lexeme :=
  let ends := st.levels.map fun _ => ⟨.dedent, st.loc, []⟩
  (if st.lineOpen then [⟨.newline, st.loc, []⟩] else []) ++ ends ++ [⟨.endOfFile, st.loc, []⟩]

end LexState

/-- Whether a line that goes on like this counts as blank or as a comment: the text ends, or a line
feed, a carriage return or `#` comes next. -/
def isBareLine : List Char → Bool
  | [] => true
  | c :: _ => c = '\n' || c = '\r' || c = '#'

/-- The lexemes of what remains of a text. `fresh` tells that a line starts here, whose
indentation counts. -/
def lexemesFrom (tabStop : Nat) (fresh : Bool) (st : LexState) (cs : List Char) :
    Except SyntaxError (List Lexeme) :=
  if fresh then
    let indent := Indent.scan tabStop .none cs
    let st := st.skip indent.text
    if isBareLine indent.rest then
      match _h : indent.rest with
      | [] => .ok st.finish
      | c :: rest =>
        let line := restOfLine (c :: rest)
        lexemesFrom tabStop true (st.skip line.text) line.rest
    else
      match Indent.enter st.levels indent.value with
      | .error fault => .error ⟨fault, st.loc⟩
      | .ok (tokens, levels) =>
        let lineOpen := st.lineOpen || !tokens.isEmpty
        (lexemesFrom tabStop false { st with levels, lineOpen } indent.rest).map
          (tokens.map (⟨·, st.loc, []⟩) ++ ·)
  else
    let blanks := skipBlanks false cs
    let st := st.skip blanks.text
    match _h : blanks.rest with
    | [] => .ok st.finish
    | c :: rest =>
      if c = '\n' then
        if st.depth = 0 then
          (lexemesFrom tabStop true { st.skip [c] with lineOpen := false } rest).map
            (⟨.newline, st.loc, [c]⟩ :: ·)
        else
          lexemesFrom tabStop false (st.skip [c]) rest
      else
        match _scanned : scanToken c rest with
        | .error fault => .error ⟨fault, st.loc⟩
        | .ok s =>
          (lexemesFrom tabStop false (st.afterToken s) s.rest).map (⟨s.value, st.loc, s.text⟩ :: ·)
termination_by (cs.length, fresh.toNat)
decreasing_by
  · have all := Scanned.length_le (Indent.scan_all tabStop .none cs)
    have line := Scanned.length_lt (restOfLine_all (c :: rest)) (by
      unfold restOfLine
      split <;> simp [Scanned.put])
    rw [_h] at all
    exact Prod.Lex.left _ _ (Nat.lt_of_lt_of_le line all)
  · have all := Scanned.length_le (Indent.scan_all tabStop .none cs)
    rcases Nat.lt_or_eq_of_le all with lt | eq
    · exact Prod.Lex.left _ _ lt
    · rw [show fresh = true from ‹fresh = true›]
      rw [eq]
      exact Prod.Lex.right _ (by decide)
  · have all := Scanned.length_le (skipBlanks_all false cs)
    rw [_h] at all
    exact Prod.Lex.left _ _ all
  · have all := Scanned.length_le (skipBlanks_all false cs)
    rw [_h] at all
    exact Prod.Lex.left _ _ all
  · have all := Scanned.length_le (skipBlanks_all false cs)
    rw [_h] at all
    exact Prod.Lex.left _ _ (Nat.lt_of_lt_of_le (scanToken_length _scanned) all)

/-- The lexemes of a text, with tab stops every `tabStop` columns. -/
def lexemesWith (tabStop : Nat) (source : List Char) : Except SyntaxError (List Lexeme) :=
  lexemesFrom tabStop true .start source

/-- The lexemes of `source`, with tabs of `standardTabStop`. -/
def lexemes (source : List Char) : Except SyntaxError (List Lexeme) :=
  lexemesWith standardTabStop source

end Stepper
