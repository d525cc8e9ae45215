import Stepper.Program
import Stepper.Proofs.Expr.Precedence
import Stepper.Proofs.Token.Lexing

/-!
# A line that assigns an expression to a name

* `Parse.statements_assign`: such a line is read as one statement if the expression is read.
* `Program.ofSource_assign_of_lexes`: so the text of the expression makes a program of one
  assignment.
-/

namespace Stepper

namespace Parse

theorem expression_of_nesting {e : Expr} {ls rest : List Lexeme} (he : e.WellFormed)
    (hdeep : e.nesting < maxNesting) (hls : Spells e.tokens ls rest) (hstops : Stops 1 rest) :
    ∃ e', expression ls = .ok (e', rest) ∧ e'.unplaced = e.unplaced := by
  obtain ⟨e', hsame, hrun⟩ | ⟨hlimit, -⟩ := expression_reads he hls hstops
  · exact ⟨e', hrun, hsame⟩
  · exact absurd hdeep (Nat.not_lt.2 hlimit)

theorem expression_name {x : String} {l : Lexeme} {rest : List Lexeme} (hl : l.token = .name x)
    (hstops : Stops 1 rest) : ∃ loc, expression (l :: rest) = .ok (.name x loc, rest) := by
  have hx : (Expr.name x .start).WellFormed := .leaf trivial rfl
  have hnesting : (Expr.name x .start).nesting ≤ 1 := Expr.nesting_leaf rfl
  obtain ⟨e, hrun, hsame⟩ := expression_of_nesting hx (Nat.lt_of_le_of_lt hnesting (by decide))
    ⟨l, rest, rfl, hl, rfl⟩ hstops
  cases e <;> simp only [Expr.unplaced, reduceCtorEq] at hsame
  case name y loc =>
    cases hsame
    exact ⟨loc, hrun⟩

/-- The tokens `ts` are read as an expression with `Q`, whatever follows them. -/
def ExpressionIs (ts : List Token) (Q : Expr → Prop) : Prop :=
  ∀ ⦃ls rest : List Lexeme⦄, Spells ts ls rest → Stops 1 rest →
    ∃ e, expression ls = .ok (e, rest) ∧ Q e

variable {ts : List Token} {Q : Expr → Prop}

/-- A line that assigns an expression with `Q` to the name `x` is read as that assignment. -/
theorem statements_assign (hread : ExpressionIs ts Q) {x : String} {ls : List Lexeme}
    (hls : ls.map (·.token) = .name x :: .symbol .equal :: (ts ++ [.newline, .endOfFile])) :
    ∃ e loc rest, statements ls = .ok ([.assign (.name x) e loc], rest) ∧ Q e := by
  -- The lexemes one by one: `name`, `equal`, those of the expression, `newline`, `last`.
  obtain ⟨name, more, rfl, hname, hmore⟩ := List.map_eq_cons_iff.1 hls
  obtain ⟨equal, more, rfl, hequal, hmore⟩ := List.map_eq_cons_iff.1 hmore
  obtain ⟨value, ends, rfl, hvalue, hends⟩ := List.map_eq_append_iff.1 hmore
  obtain ⟨newline, ends, rfl, hnewline, hends⟩ := List.map_eq_cons_iff.1 hends
  obtain ⟨last, ends, rfl, hlast, hnil⟩ := List.map_eq_cons_iff.1 hends
  obtain rfl : ends = [] := List.map_eq_nil_iff.1 hnil
  have hline : Stops 1 [newline, last] := by
    rw [Stops, ahead_cons, hnewline]
    exact Nat.one_pos
  have hspells : Spells ts (value ++ [newline, last]) [newline, last] :=
    hvalue ▸ spells_map value _
  have hequalStops : Stops 1 (equal :: (value ++ [newline, last])) := stops_of_symbol hequal rfl
  obtain ⟨loc, htarget⟩ := expression_name hname hequalStops
  obtain ⟨e, hrun, hQ⟩ := hread hspells hline
  -- From the inside out, each parser on the same lexemes.
  have hassign : expressionStatement (name :: equal :: (value ++ [newline, last])) =
      .ok ((.assign (.name x) e name.loc, ⟨[x], []⟩), [newline, last]) := by
    rw [expressionStatement, bind_of_ok here_run, bind_of_ok htarget,
      bind_of_ok (accept_of_symbol hequal), if_pos rfl]
    refine (bind_of_ok rfl).trans ((bind_of_ok hrun).trans ((bind_of_ok peek_run).trans ?_))
    rw [ahead_cons, hnewline]
    rfl
  have hsimple : simpleStatement ⟨false, false⟩ (name :: equal :: (value ++ [newline, last])) =
      .ok ((.assign (.name x) e name.loc, ⟨[x], []⟩), [newline, last]) := by
    rw [simpleStatement, bind_of_ok next_run, ahead_cons, hname]
    exact hassign
  have hsingle : simpleLine ⟨false, false⟩ (name :: equal :: (value ++ [newline, last])) =
      .ok (⟨[.assign (.name x) e name.loc], ⟨[x], []⟩⟩, [last]) := by
    have hsemicolon : (ahead [newline, last]).token.isSymbol .semicolon = false := by
      rw [ahead_cons, hnewline]
      rfl
    have hmore : moreSimple ⟨false, false⟩ [newline, last] [newline, last] =
        .ok (.empty, [newline, last]) := by
      rw [moreSimple, accept, bind_of_ok (acceptIf_of_false hsemicolon)]
      rfl
    have hend : expectIf (·.isNewline) "invalid syntax: expected end of line" [newline, last] =
        .ok ((), [last]) := by
      rw [expectIf, bind_of_ok peek_run, ahead_cons, hnewline]
      exact advance_run (by rw [hnewline]; rfl)
    rw [simpleLine, bind_of_ok hsimple, bind_of_ok remaining_run, bind_of_ok hmore,
      bind_of_ok peek_run, ahead_cons, hnewline]
    exact bind_of_ok hend
  have hstatement : statement maxBlockDepth ⟨false, false⟩
      (name :: equal :: (value ++ [newline, last])) =
      .ok (⟨[.assign (.name x) e name.loc], ⟨[x], []⟩⟩, [last]) := by
    change statementWith _ _ _ = _
    rw [statementWith, bind_of_ok next_run, ahead_cons, hname]
    exact hsingle
  refine ⟨e, name.loc, [last], ?_, hQ⟩
  rw [statements, bind_of_ok remaining_run]
  -- After the line one turn is left, which finds the end of the text.
  generalize hrounds : equal :: (value ++ [newline, last]) = rounds at hstatement ⊢
  have hlast : statementsFrom rounds [last] = .ok ([], [last]) := by
    rw [← hrounds, statementsFrom, bind_of_ok peek_run, ahead_cons, hlast]
    rfl
  rw [statementsFrom, bind_of_ok peek_run, ahead_cons, hname]
  exact (bind_of_ok hstatement).trans (bind_of_ok hlast)

end Parse

/-- The `text` of an expression, in an assignment to `it`, makes a program of one statement. -/
theorem Program.ofSource_assign_of_lexes {ts : List Token} {Q : Expr → Prop} {text : String}
    (hlex : Lexes text.toList [] ts) (hread : Parse.ExpressionIs ts Q) :
    ∃ p e loc, ofSource ("it = " ++ text) = .ok p ∧ p.body = [.assign (.name "it") e loc] ∧
      Q e := by
  have hname : Lexes ('i' :: (['t'] ++ ' ' :: '=' :: ' ' :: text.toList))
      (' ' :: '=' :: ' ' :: text.toList) [.name "it"] := by
    have hword : wordToken (String.ofList ['i', 't']) = .name "it" := by
      rw [wordToken, show Keyword.ofText? (String.ofList ['i', 't']) = none by decide]
    have hspace : ∀ c ∈ (' ' :: '=' :: ' ' :: text.toList).head?, continuesName c = false := by
      rintro c hc
      cases hc
      decide
    rw [← hword]
    exact Lexes.word (by decide) rfl (forall_mem_of_all (by decide)) hspace
  have hline : Lexes ('i' :: (['t'] ++ ' ' :: '=' :: ' ' :: text.toList)) []
      ([.name "it"] ++ ([] ++ ([.symbol .equal] ++ ([] ++ ts)))) :=
    hname.append <| Lexes.append .blank <| Lexes.append (Lexes.symbol (by decide) rfl) <|
      Lexes.append .blank hlex
  obtain ⟨ls, hlexemes, htokens⟩ := hline.lexemes (by decide) (by simp)
  obtain ⟨e, loc, rest, hparse, hQ⟩ := Parse.statements_assign hread htokens
  have hsource : ("it = " ++ text).toList = 'i' :: (['t'] ++ ' ' :: '=' :: ' ' :: text.toList) := by
    simp
  refine ⟨⟨_, Text.lines ("it = " ++ text)⟩, e, loc, ?_, rfl, hQ⟩
  rw [ofSource, hsource, hlexemes]
  change Except.bind (Parse.statements ls) _ = _
  rw [hparse]
  rfl

end Stepper
