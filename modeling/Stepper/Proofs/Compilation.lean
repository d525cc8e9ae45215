import Stepper.Program
import Stepper.Proofs.Expr.Levels
import Stepper.Proofs.Stmt.Progress
import Stepper.Proofs.Token.Loops

/-!
# Compilation comes to an end and reads everything

* `LexerProgresses`: each loop of the lexer takes a character in every turn or is over.
* `ParserProgresses`: each loop of the parser takes a lexeme in every turn or is over.
* `Program.compilation_ends`: so both come to an end, and a program that is found was read to the
  end of its text.
-/

namespace Stepper

/-- The loops of the lexer. Its main loop takes `ended` for the fault of a token where the text is
over, and `malformed` for that of a number that cannot be read. -/
structure LexerProgresses (tabStop : Nat) (ended : SyntaxFault) (malformed : String → SyntaxFault) :
    Prop where
  main : Loops (fun _ => True) (lexLoop tabStop) (lexTurn tabStop ended malformed)
  margin : Loops (fun _ => True)
    (fun indent cs => (Indent.scan tabStop indent cs).result (ε := SyntaxFault))
    (marginTurn tabStop)
  blanks : Loops (fun _ => True) (fun _ cs => (skipBlanks false cs).result (ε := SyntaxFault))
    blanksTurn
  comment : Loops (fun _ => True) (fun _ cs => (skipBlanks true cs).result (ε := SyntaxFault))
    commentTurn
  line : Loops (fun _ => True) (fun _ cs => (restOfLine cs).result (ε := SyntaxFault)) lineTurn
  string : ∀ quote, Loops (fun _ => True) (fun _ => stringRest quote) (stringTurn quote)
  digits : Loops (fun _ => True) (fun _ cs => (scanDigits cs).result (ε := SyntaxFault)) digitsTurn
  word : Loops (fun _ => True)
    (fun _ cs => .ok (cs.takeWhile continuesName, cs.dropWhile continuesName))
    (wordTurn (ε := SyntaxFault))

theorem lexer_progresses (tabStop : Nat) (ended : SyntaxFault) (malformed : String → SyntaxFault) :
    LexerProgresses tabStop ended malformed where
  main := lexemes_loop tabStop ended malformed
  margin := margin_loop tabStop
  blanks := blanks_loop
  comment := comment_loop
  line := line_loop
  string := string_loop
  digits := digits_loop
  word := word_loop

namespace Parse

theorem beneath_take (room : Nat) : Levels.Take (beneath room) := by
  cases room with
  | zero => exact beyond_take
  | succ room => exact levels_take room

/-- The parser of the statements in the blocks of a statement that has room for `room` blocks;
`none` if there is no room for one. -/
def blockStatement? : Nat → Option (Context → Parse Code)
  | 0 => none
  | room + 1 => some (statement room)

theorem statement_eq (room : Nat) :
    statement room = statementWith (block (blockStatement? room)) := by
  cases room <;> rfl

theorem takes_blockStatement (room : Nat) : BlocksTake (block (blockStatement? room)) := by
  refine takes_block fun statement h => ?_
  cases room with
  | zero => cases h
  | succ room =>
    obtain rfl := Option.some.inj h
    exact statement_takes room

end Parse

open Parse in
/-- The loops of the parser, at each `room` for further levels and blocks. The lists that they run
on hold the end of the text (`HasEnd`). -/
structure ParserProgresses : Prop where
  levels : ∀ room, levels room = levelsOver room (beneath room)
  statement : ∀ room, statement room = statementWith (block (blockStatement? room))
  program : Loops HasEnd (fun _ ls => statementsFrom ls ls) programTurn
  block : ∀ room context, Loops HasEnd (fun _ ls => untilEnd (Parse.statement room context) ls ls)
    (blockTurn (Parse.statement room context))
  line : ∀ context, Loops HasEnd (fun _ ls => moreSimple context ls ls) (simpleTurn context)
  branches : ∀ room context,
    Loops HasEnd (fun _ ls => moreBranches (Parse.block (blockStatement? room) context) ls ls)
      (branchesTurn (Parse.block (blockStatement? room) context))
  names : Loops HasEnd (fun _ ls => moreNames ls ls) namesTurn
  parameters : Loops HasEnd (fun params ls => parametersFrom ls params ls) parametersTurn
  arguments : ∀ room,
    Loops HasEnd (fun names ls => argumentsAfter (beneath room).disjunction ls names ls)
      (argumentsTurn (beneath room).disjunction)
  list : ∀ room,
    Loops HasEnd (fun _ ls => itemsUpTo .rightBracket (beneath room).disjunction ls ls)
      (itemsTurn .rightBracket (beneath room).disjunction)
  dict : ∀ room,
    Loops HasEnd (fun _ ls => itemsUpTo .rightBrace (entry (beneath room).disjunction) ls ls)
      (itemsTurn .rightBrace (entry (beneath room).disjunction))
  comparisons : ∀ room,
    Loops HasEnd (fun _ ls => comparisons (sum room (beneath room)) ls ls)
      (comparisonsTurn (sum room (beneath room)))
  texts : Loops HasEnd (fun _ ls => adjacentTexts ls ls) textsTurn

open Parse in
theorem parser_progresses : ParserProgresses where
  levels := levels_eq
  statement := statement_eq
  program := program_runs.loop
  block room context := (block_runs (statement_takes room context)).loop
  line _ := simple_runs.loop
  branches room context := (branches_runs (takes_blockStatement room context)).loop
  names := names_runs.loop
  parameters := parameters_runs.loop
  arguments room := (arguments_runs (beneath_take room).disjunction).loop
  list room := (items_runs (beneath_take room).disjunction).loop
  dict room := (items_runs (takes_entry (beneath_take room))).loop
  comparisons room := (comparisons_runs (takes_sum (beneath_take room) room)).loop
  texts := texts_runs.loop

/-- Lexemes `ls` that end once hold the end of the text. -/
theorem EndsOnce.hasEnd {ls : List Lexeme} (h : EndsOnce ls) : HasEnd ls := by
  obtain ⟨init, last, rfl, hlast, -⟩ := h
  exact ⟨last, by simp, by rw [hlast]; rfl⟩

/-- What is left of lexemes `ls` that end once, if it begins with `endOfFile`, is this one alone. -/
theorem EndsOnce.rest_eq {ls taken rest : List Lexeme} (h : EndsOnce ls) (hls : ls = taken ++ rest)
    (hrest : HasEnd rest) (hahead : (ahead rest).token = .endOfFile) :
    ∃ last, rest = [last] ∧ last.token = .endOfFile := by
  obtain ⟨init, last, hsplit, hlast, hinit⟩ := h
  obtain ⟨l, rest, rfl⟩ := List.exists_cons_of_ne_nil hrest.ne_nil
  rw [ahead_cons] at hahead
  rw [hls] at hsplit
  rcases List.append_eq_append_iff.1 hsplit with ⟨more, hmore, hend⟩ | ⟨more, hmore, hend⟩
  · cases more with
    | nil =>
      obtain ⟨rfl, rfl⟩ : l = last ∧ rest = [] := by simpa using hend
      exact ⟨l, rfl, hahead⟩
    | cons m more =>
      obtain ⟨rfl, -⟩ := List.cons.inj hend
      have hl := hinit l (by simp [hmore])
      rw [hahead] at hl
      cases hl
  · cases more with
    | nil => exact ⟨last, by simpa using hend.symm, hlast⟩
    | cons m more => simp at hend

/-- Every loop of the lexer and the parser takes something in each turn, so both are over after no
more turns than there are characters and lexemes, and one. Neither `ended` nor `malformed`, the
answers that the lexer has at the end of the text and for a number that cannot be read, is ever
given. The statements of `source` end at its end, before which everything is taken. -/
theorem Program.compilation_ends (source : String) :
    (∀ ended malformed, LexerProgresses standardTabStop ended malformed ∧
      runTurns (lexTurn standardTabStop ended malformed) (source.toList.length + 1) (true, .start)
        source.toList = (lexemes source.toList).map fun ls => (some ls, [])) ∧
    ParserProgresses ∧
    ∀ ls, lexemes source.toList = .ok ls →
      runTurns Parse.programTurn (ls.length + 1) () ls =
        (Parse.statements ls).map (fun r => (some r.1, r.2)) ∧
      ∀ body rest, Parse.statements ls = .ok (body, rest) →
        ∃ taken last, ls = taken ++ [last] ∧ rest = [last] ∧ last.token = .endOfFile ∧
          ∀ l ∈ taken, l.token.isEndOfFile = false := by
  refine ⟨fun ended malformed => ⟨lexer_progresses _ ended malformed, ?_⟩, parser_progresses,
    fun ls hlex => ?_⟩
  · rw [(lexemes_loop _ ended malformed).runTurns_eq trivial (Nat.lt_succ_self _), lexLoop,
      Except.map_map]
    rfl
  · have hends := (lexed_of_ok hlex).endsOnce
    refine ⟨Parse.program_runs.loop.runTurns_eq hends.hasEnd (Nat.lt_succ_self _), ?_⟩
    intro body rest hstatements
    have htakes : Parse.Takes Parse.statements fun _ => 0 :=
      Parse.takes_remaining.after fun rounds => Parse.program_runs.takes_rounds rounds ()
    obtain ⟨taken, hls, -, htaken⟩ := htakes ls body rest hstatements
    -- The end of the text is not among what was taken, so it is in `rest`, and nothing else is.
    have hrest : HasEnd rest := HasEnd.of_append (hls ▸ hends.hasEnd) htaken
    obtain ⟨last, rfl, hlast⟩ :=
      hends.rest_eq hls hrest (Parse.statements_end hends.hasEnd hstatements)
    exact ⟨taken, last, hls, rfl, hlast, htaken⟩

end Stepper
