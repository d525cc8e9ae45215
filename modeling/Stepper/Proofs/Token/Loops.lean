import Stepper.Proofs.Loop
import Stepper.Proofs.Token.Lexed
import Stepper.Proofs.Token.Numeral

/-!
# Every turn of the lexer takes a character

* `marginTurn`, `commentTurn`, `blanksTurn`, `lineTurn`, `stringTurn`, `digitsTurn`, `wordTurn`: the
  turns of the scanners. Each scanner runs as a loop of them, and no turn but the last leaves the
  text as it was.
* `nextToken`: the next token as the main loop asks for it, with an answer at the end of the text,
  and one for a number that cannot be read.
* `lexTurn`, `lexemes_loop`: the main loop. Neither of the two answers plays a part in it.
-/

namespace Stepper

/-- What the scan `s` found, and the text after it. -/
def Scanned.result (s : Scanned α) : Except ε (α × List Char) :=
  .ok (s.value, s.rest)

variable {ε : Type}

/-! ## Scanners -/

/-- A turn along the margin of a line: a blank is added to `indent`. -/
def marginTurn (tabStop : Nat) (indent : Indent) : Reader Char ε (Turn Indent Indent)
  | [] => .ok (.stop indent, [])
  | c :: rest =>
    if c = ' ' || c = '\t' || c = '\x0c' then .ok (.again (indent.next tabStop c) id, rest)
    else .ok (.stop indent, c :: rest)

theorem margin_loop (tabStop : Nat) :
    Loops (fun _ => True) (fun indent cs => (Indent.scan tabStop indent cs).result (ε := ε))
      (marginTurn tabStop) := by
  refine .of_unfolds fun indent cs => ?_
  unfold marginTurn
  split
  · exact .stops rfl
  · rename_i c rest
    split
    · refine .goesOn [c] (List.cons_ne_nil _ _) rfl ?_
      simp only [Indent.scan, ‹_ = true›]
      rfl
    · refine .stops ?_
      simp only [Indent.scan, ‹¬_›]
      rfl

/-- A turn within a comment: any character but `\n`. -/
def commentTurn (_ : Unit) : Reader Char ε (Turn Unit Unit)
  | [] => .ok (.stop (), [])
  | c :: rest => if c = '\n' then .ok (.stop (), c :: rest) else .ok (.again () id, rest)

theorem comment_loop :
    Loops (fun _ => True) (fun _ cs => (skipBlanks true cs).result (ε := ε)) commentTurn := by
  refine .of_unfolds fun _ cs => ?_
  unfold commentTurn
  split
  · refine .stops ?_
    rw [skipBlanks.eq_def]
    rfl
  · rename_i c rest
    split
    · refine .stops ?_
      rw [skipBlanks.eq_def]
      simp only [‹c = '\n'›]
      rfl
    · refine .goesOn [c] (List.cons_ne_nil _ _) rfl ?_
      rw [skipBlanks.eq_def]
      simp only [‹¬c = '\n'›]
      rfl

/-- A turn between tokens: a blank, a whole comment, or a joined line. -/
def blanksTurn (_ : Unit) : Reader Char ε (Turn Unit Unit)
  | [] => .ok (.stop (), [])
  | c :: rest =>
    if c = ' ' || c = '\t' || c = '\r' || c = '\x0c' then .ok (.again () id, rest)
    else if c = '#' then .ok (.again () id, (skipBlanks true rest).rest)
    else if c = '\\' then
      match rest with
      | '\n' :: rest => .ok (.again () id, rest)
      | '\r' :: '\n' :: rest => .ok (.again () id, rest)
      | _ => .ok (.stop (), c :: rest)
    else .ok (.stop (), c :: rest)

/-- After a comment the line or the text ends, so no more is skipped. -/
theorem skipBlanks_afterComment (cs : List Char) :
    (skipBlanks false (skipBlanks true cs).rest).rest = (skipBlanks true cs).rest := by
  induction cs with
  | nil => rw [skipBlanks.eq_def true]; rw [skipBlanks.eq_def]
  | cons c cs ih =>
    by_cases hc : c = '\n'
    · subst c
      rw [skipBlanks.eq_def true]
      rw [skipBlanks.eq_def]
      rfl
    · rw [skipBlanks.eq_def true]
      simp only [hc]
      exact ih

theorem blanks_loop :
    Loops (fun _ => True) (fun _ cs => (skipBlanks false cs).result (ε := ε)) blanksTurn := by
  refine .of_unfolds fun _ cs => ?_
  cases cs with
  | nil =>
    refine .stops ?_
    rw [skipBlanks.eq_def]
    rfl
  | cons c rest =>
    have hskip := skipBlanks.eq_def false (c :: rest)
    simp only [Bool.false_eq_true, if_false] at hskip
    simp only [blanksTurn]
    by_cases hblank : (c = ' ' || c = '\t' || c = '\r' || c = '\x0c') = true
    · rw [if_pos hblank] at hskip ⊢
      refine .goesOn [c] (List.cons_ne_nil _ _) rfl ?_
      rw [hskip]
      rfl
    rw [if_neg hblank] at hskip ⊢
    by_cases hcomment : c = '#'
    · rw [if_pos hcomment] at hskip ⊢
      refine .goesOn (c :: (skipBlanks true rest).text) (List.cons_ne_nil _ _)
        (congrArg (c :: ·) (skipBlanks_all true rest).symm) ?_
      rw [hskip]
      simp [Scanned.result, Scanned.put, Except.map, skipBlanks_afterComment]
    rw [if_neg hcomment] at hskip ⊢
    by_cases hslash : c = '\\'
    · rw [if_pos hslash] at hskip ⊢
      split
      · refine .goesOn [c, '\n'] (List.cons_ne_nil _ _) rfl ?_
        rw [hskip]
        rfl
      · refine .goesOn [c, '\r', '\n'] (List.cons_ne_nil _ _) rfl ?_
        rw [hskip]
        rfl
      · rename_i hfeed hreturn
        refine .stops ?_
        rw [hskip]
        split
        · exact (hfeed _ rfl).elim
        · exact (hreturn _ rfl).elim
        · rfl
    · rw [if_neg hslash] at hskip ⊢
      refine .stops ?_
      rw [hskip]
      rfl

/-- A turn along the rest of a line, up to and with its `\n`. -/
def lineTurn (_ : Unit) : Reader Char ε (Turn Unit Unit)
  | [] => .ok (.stop (), [])
  | c :: rest => if c = '\n' then .ok (.stop (), rest) else .ok (.again () id, rest)

theorem line_loop :
    Loops (fun _ => True) (fun _ cs => (restOfLine cs).result (ε := ε)) lineTurn := by
  refine .of_unfolds fun _ cs => ?_
  unfold lineTurn
  split
  · exact .stops rfl
  · rename_i c rest
    split
    · refine .stops ?_
      simp only [restOfLine, ‹c = '\n'›]
      rfl
    · refine .goesOn [c] (List.cons_ne_nil _ _) rfl ?_
      simp only [restOfLine, ‹¬c = '\n'›]
      rfl

/-- A turn within a string: its closing `quote`, an escaped character, or another one. -/
def stringTurn (quote : Char) (_ : Unit) : Reader Char SyntaxFault (Turn Unit (List Char))
  | [] => .error .unterminatedString
  | c :: rest =>
    if c = quote then .ok (.stop [], rest)
    else if c = '\n' then .error .unterminatedString
    else if c = '\\' then
      match rest with
      | [] => .error .unterminatedString
      | e :: rest => .ok (.again () (unescape e ++ ·), rest)
    else .ok (.again () (c :: ·), rest)

/-- The rest of a string after its opening `quote`, or that it has no end. -/
def stringRest (quote : Char) (cs : List Char) : Except SyntaxFault (List Char × List Char) :=
  match scanString quote cs with
  | some s => s.result
  | none => .error .unterminatedString

theorem string_loop (quote : Char) :
    Loops (fun _ => True) (fun _ => stringRest quote) (stringTurn quote) := by
  refine .of_unfolds fun _ cs => ?_
  cases cs with
  | nil => exact .fails rfl
  | cons c rest =>
    have hscan := scanString.eq_def quote (c :: rest)
    simp only at hscan
    simp only [stringTurn]
    by_cases hquote : c = quote
    · rw [if_pos hquote] at hscan ⊢
      refine .stops ?_
      rw [stringRest, hscan]
      rfl
    rw [if_neg hquote] at hscan ⊢
    by_cases hline : c = '\n'
    · rw [if_pos hline] at hscan ⊢
      refine .fails ?_
      rw [stringRest, hscan]
    rw [if_neg hline] at hscan ⊢
    by_cases hslash : c = '\\'
    · rw [if_pos hslash] at hscan ⊢
      cases rest with
      | nil =>
        refine .fails ?_
        rw [stringRest, hscan]
      | cons e rest =>
        simp only at hscan
        refine .goesOn [c, e] (List.cons_ne_nil _ _) rfl ?_
        rw [stringRest, hscan, stringRest]
        cases scanString quote rest <;> rfl
    · rw [if_neg hslash] at hscan ⊢
      refine .goesOn [c] (List.cons_ne_nil _ _) rfl ?_
      rw [stringRest, hscan, stringRest]
      cases scanString quote rest <;> rfl

/-- A turn along digits: a digit, or `_` before one. -/
def digitsTurn (_ : Unit) : Reader Char ε (Turn Unit (List Char))
  | [] => .ok (.stop [], [])
  | c :: rest =>
    if Text.isAsciiDigit c then .ok (.again () (c :: ·), rest)
    else if c = '_' && startsWithDigit rest then .ok (.again () id, rest)
    else .ok (.stop [], c :: rest)

theorem digits_loop :
    Loops (fun _ => True) (fun _ cs => (scanDigits cs).result (ε := ε)) digitsTurn := by
  refine .of_unfolds fun _ cs => ?_
  cases cs with
  | nil => exact .stops rfl
  | cons c rest =>
    simp only [digitsTurn]
    by_cases hdigit : Text.isAsciiDigit c = true
    · rw [if_pos hdigit]
      refine .goesOn [c] (List.cons_ne_nil _ _) rfl ?_
      rw [scanDigits, if_pos hdigit]
      rfl
    rw [if_neg hdigit]
    by_cases hunderscore : (c = '_' && startsWithDigit rest) = true
    · rw [if_pos hunderscore]
      refine .goesOn [c] (List.cons_ne_nil _ _) rfl ?_
      rw [scanDigits, if_neg hdigit, if_pos hunderscore]
      rfl
    · rw [if_neg hunderscore]
      refine .stops ?_
      rw [scanDigits, if_neg hdigit, if_neg hunderscore]
      rfl

/-- A turn along a word: a character that continues a name. -/
def wordTurn (_ : Unit) : Reader Char ε (Turn Unit (List Char))
  | [] => .ok (.stop [], [])
  | c :: rest =>
    if continuesName c then .ok (.again () (c :: ·), rest) else .ok (.stop [], c :: rest)

theorem word_loop :
    Loops (fun _ => True)
      (fun _ cs => .ok (cs.takeWhile continuesName, cs.dropWhile continuesName))
      (wordTurn (ε := ε)) := by
  refine .of_unfolds fun _ cs => ?_
  unfold wordTurn
  split
  · exact .stops rfl
  · rename_i c rest
    split
    · refine .goesOn [c] (List.cons_ne_nil _ _) rfl ?_
      simp [*, Except.map]
    · refine .stops ?_
      simp [*]

/-! ## The main loop -/

/-- The next token of a text. If there is no text, the fault is `ended`; and `malformed` is that of
a number with a fraction or an exponent whose characters are not those of a float. -/
def nextToken (ended : SyntaxFault) (malformed : String → SyntaxFault) :
    List Char → Except SyntaxFault (Scanned Token)
  | [] => .error ended
  | c :: rest =>
    if Text.isAsciiDigit c || (c = '.' && startsWithDigit rest) then
      let s := scanNumeral (c :: rest)
      (numberToken malformed s).map fun token => s.map fun _ => token
    else scanToken c rest

/-- Where there is text, neither `ended` nor `malformed` comes up. -/
theorem nextToken_cons (ended : SyntaxFault) (malformed : String → SyntaxFault) (c : Char)
    (rest : List Char) : nextToken ended malformed (c :: rest) = scanToken c rest := by
  rw [nextToken]
  split
  · rename_i hstart
    have hquote : ¬(c = '"' || c = '\x27') = true := by
      simp only [Bool.or_eq_true, decide_eq_true_eq]
      rintro (rfl | rfl)
      · revert hstart
        simp
        decide
      · revert hstart
        simp
        decide
    rw [scanToken, if_neg hquote, if_pos hstart]
    dsimp only
    rw [numberToken_scanNumeral _ hstart]
  · rfl

/-- A turn within a line: the end of the text, of the line, or a token. -/
def lineTokenTurn (ended : SyntaxFault) (malformed : String → SyntaxFault) (st : LexState) :
    Reader Char SyntaxError (Turn (Bool × LexState) (List Lexeme)) := fun cs =>
  let blanks := skipBlanks false cs
  let st := st.skip blanks.text
  if blanks.rest.isEmpty then .ok (.stop st.finish, [])
  else if blanks.rest.head? = some '\n' then
    if st.depth = 0 then
      .ok (.again (true, st.endLine) (⟨.newline, st.loc, ['\n']⟩ :: ·), blanks.rest.tail)
    else .ok (.again (false, st.skip ['\n']) id, blanks.rest.tail)
  else
    match nextToken ended malformed blanks.rest with
    | .error fault => .error ⟨fault, st.loc⟩
    | .ok s => .ok (.again (false, st.afterToken s) (⟨s.value, st.loc, s.text⟩ :: ·), s.rest)

/-- A turn of the lexer. At the start of a line (`true`) it passes over the line if it is bare, and
puts the layout tokens of its margin before what comes next if it is not. -/
def lexTurn (tabStop : Nat) (ended : SyntaxFault) (malformed : String → SyntaxFault) :
    Bool × LexState → Reader Char SyntaxError (Turn (Bool × LexState) (List Lexeme))
  | (false, st), cs => lineTokenTurn ended malformed st cs
  | (true, st), cs =>
    let indent := Indent.scan tabStop .none cs
    let st := st.skip indent.text
    if isBareLine indent.rest then
      if indent.rest.isEmpty then .ok (.stop st.finish, [])
      else
        let line := restOfLine indent.rest
        .ok (.again (true, st.skip line.text) id, line.rest)
    else
      match Indent.enter st.levels indent.value with
      | .error fault => .error ⟨fault, st.loc⟩
      | .ok (tokens, levels) =>
        let layout := tokens.map (⟨·, st.loc, []⟩)
        (lineTokenTurn ended malformed (st.enter tokens levels) indent.rest).map fun r =>
          (r.1.complete (layout ++ ·), r.2)

/-- The lexer, which reads a text from `place` to its end. -/
def lexLoop (tabStop : Nat) (place : Bool × LexState) : Reader Char SyntaxError (List Lexeme) :=
  fun cs => (lexemesFrom tabStop place.1 place.2 cs).map (·, [])

theorem map_lexLoop (tabStop : Nat) (fresh : Bool) (st : LexState)
    (f : List Lexeme → List Lexeme) (cs : List Char) :
    (lexLoop tabStop (fresh, st) cs).map (fun r => (f r.1, r.2)) =
      ((lexemesFrom tabStop fresh st cs).map f).map (·, []) := by
  rw [lexLoop, Except.map_map, Except.map_map]
  rfl

theorem map_lexLoop_id (tabStop : Nat) (fresh : Bool) (st : LexState) (cs : List Char) :
    (lexLoop tabStop (fresh, st) cs).map (fun r => (id r.1, r.2)) =
      (lexemesFrom tabStop fresh st cs).map (·, []) := by
  rw [lexLoop, Except.map_map]
  rfl

theorem lineToken_unfolds (tabStop : Nat) (ended : SyntaxFault) (malformed : String → SyntaxFault)
    (st : LexState) (cs : List Char) :
    Unfolds (lexLoop tabStop) (false, st) cs (lineTokenTurn ended malformed st cs) := by
  have hall : (skipBlanks false cs).text ++ (skipBlanks false cs).rest = cs :=
    skipBlanks_all false cs
  have hrun := lexemesFrom_eq tabStop st cs
  unfold lineTokenTurn
  generalize skipBlanks false cs = blanks at hall hrun ⊢
  obtain ⟨_, text, rest⟩ := blanks
  dsimp only at hall hrun ⊢
  -- After the gap: the end of the text, the end of a line outside or inside brackets, or a token.
  cases rest with
  | nil =>
    refine .stops ?_
    rw [lexLoop, hrun]
    rfl
  | cons c rest =>
    simp only [List.isEmpty_cons, Bool.false_eq_true, if_false, List.head?_cons, Option.some.injEq,
      List.tail_cons]
    rw [nextToken_cons]
    simp only [lexAfterBlanks] at hrun
    split
    · rename_i hline
      subst c
      rw [if_pos rfl] at hrun
      have htaken : cs = (text ++ ['\n']) ++ rest := by simp [← hall]
      split
      · rename_i hdepth
        rw [if_pos hdepth] at hrun
        refine .goesOn (text ++ ['\n']) (by simp) htaken ?_
        rw [lexLoop, hrun]
        exact (map_lexLoop ..).symm
      · rename_i hdepth
        rw [if_neg hdepth] at hrun
        refine .goesOn (text ++ ['\n']) (by simp) htaken ?_
        rw [lexLoop, hrun]
        exact (map_lexLoop_id ..).symm
    · rename_i hline
      rw [if_neg hline] at hrun
      cases hscan : scanToken c rest with
      | error fault =>
        rw [hscan] at hrun
        refine .fails ?_
        rw [lexLoop, hrun]
        rfl
      | ok s =>
        rw [hscan] at hrun
        have hs : s.text ++ s.rest = c :: rest := scanToken_all hscan
        refine .goesOn (text ++ s.text) (by simp [scanToken_text_ne_nil hscan])
          (by rw [List.append_assoc, hs, hall]) ?_
        rw [lexLoop, hrun]
        exact (map_lexLoop ..).symm

/-- The main loop of the lexer: it runs by `lexTurn`, whatever `ended` and `malformed` say at the
end of the text and of numbers that cannot be read. -/
theorem lexemes_loop (tabStop : Nat) (ended : SyntaxFault) (malformed : String → SyntaxFault) :
    Loops (fun _ => True) (lexLoop tabStop) (lexTurn tabStop ended malformed) := by
  refine .of_unfolds fun (fresh, st) cs => ?_
  cases fresh with
  | false => exact lineToken_unfolds tabStop ended malformed st cs
  | true =>
    have hall : (Indent.scan tabStop .none cs).text ++ (Indent.scan tabStop .none cs).rest = cs :=
      Indent.scan_all tabStop .none cs
    have hrun := lexemesFrom.eq_def tabStop true st cs
    rw [if_pos rfl] at hrun
    unfold lexTurn
    dsimp only at hrun ⊢
    generalize Indent.scan tabStop .none cs = indent at hall hrun ⊢
    obtain ⟨value, text, rest⟩ := indent
    dsimp only at hall hrun ⊢
    split
    · rename_i hbare
      rw [if_pos hbare] at hrun
      cases rest with
      | nil =>
        refine .stops ?_
        rw [lexLoop, hrun]
        rfl
      | cons c rest =>
        have hline : (restOfLine (c :: rest)).text ++ (restOfLine (c :: rest)).rest = c :: rest :=
          restOfLine_all (c :: rest)
        refine .goesOn (text ++ (restOfLine (c :: rest)).text) ?_ ?_ ?_
        · unfold restOfLine
          split <;> simp [Scanned.put]
        · rw [List.append_assoc, hline, hall]
        · rw [lexLoop, hrun]
          exact (map_lexLoop_id ..).symm
    · rename_i hbare
      rw [if_neg hbare] at hrun
      cases hentered : Indent.enter (st.skip text).levels value with
      | error fault =>
        rw [hentered] at hrun
        refine .fails ?_
        rw [lexLoop, hrun]
        rfl
      | ok entered =>
        obtain ⟨tokens, levels⟩ := entered
        rw [hentered] at hrun
        -- What the margin is followed by is a turn within the line, after the characters of the
        -- margin.
        have hturn :=
          lineToken_unfolds tabStop ended malformed ((st.skip text).enter tokens levels) rest
        refine hturn.after text hall.symm ?_
        rw [lexLoop, hrun]
        exact (map_lexLoop ..).symm

end Stepper
