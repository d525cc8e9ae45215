import Stepper.Proofs.Expr.Progress
import Stepper.Stmt.Parser

/-!
# Every turn of the statement parsers takes a lexeme

* `namesTurn`, `simpleTurn`, `blockTurn`, `branchesTurn`, `parametersTurn`, `programTurn`: the turns
  of the parsers that repeat a step, and that these run as loops of them.
* `Parse.statement_takes`: a statement takes at least one lexeme.
* `Parse.statements_end`: the statements of a whole text end where the text does.
-/

namespace Stepper

namespace Parse

variable {ls : List Lexeme} {context : Context}

/-! ## Simple statements -/

theorem takes_asTarget (e : Expr) : Takes (asTarget e) fun _ => 0 := by
  cases e
  case name => exact takes_pure rfl
  case index => exact takes_pure rfl
  all_goals exact takes_failAt _ _

theorem takes_expressionStatement : Takes expressionStatement fun _ => 1 := by
  refine takes_here.after fun loc => takes_expression.bind fun e =>
    (takes_accept .equal).after fun assigns => ?_
  split
  · refine (takes_asTarget e).after fun target => takes_expression.after fun value =>
      takes_peek.after fun t => ?_
    split
    · exact Takes.after (p := fun _ => 0) (takes_fail _) fun _ => takes_pure rfl
    · exact takes_pure rfl
  · refine takes_peek.after fun t => ?_
    split
    · exact takes_advance.after fun _ => (takes_asTarget e).after fun target =>
        takes_expression.after fun value => takes_pure rfl
    · exact takes_pure rfl

/-- A turn of `moreNames`: a comma and a name, if there is a comma. -/
def namesTurn (_ : Unit) : Parse (Turn Unit (List String)) := do
  if ← accept .comma then
    let name ← identifier
    return .again () (name :: ·)
  else
    return .stop []

theorem names_runs : RunsInRounds (fun rounds _ => moreNames rounds) namesTurn where
  nil _ := takes_pure rfl
  cons r rs _ := by
    simp only [moreNames, namesTurn, bind_assoc]
    refine bind_congr fun more => ?_
    cases more with
    | false => rfl
    | true =>
      simp only [if_true, bind_assoc]
      exact bind_congr fun name => rfl
  takes _ := by
    refine (takes_accept .comma).after fun more => ?_
    split
    · exact takes_identifier.bind fun name => takes_pure rfl
    · exact takes_pure rfl

theorem takes_simpleStatement : Takes (simpleStatement context) fun _ => 1 := by
  refine fun ls => TakesFrom.next ?_
  dsimp only
  split
  · rename_i h
    exact .advance (by rw [h]; rfl) (takes_pure rfl)
  · rename_i h
    refine .advance (by rw [h]; rfl) ?_
    split
    · exact takes_pure rfl
    · exact takes_failAt _ _
  · rename_i h
    refine .advance (by rw [h]; rfl) ?_
    split
    · exact takes_pure rfl
    · exact takes_failAt _ _
  · rename_i h
    have hrest : Takes (do
        if endsStatement (← peek) then
          return (Stmt.giveBack none (ahead ls).loc, Scope.empty)
        else
          return (Stmt.giveBack (some (← expression)) (ahead ls).loc, Scope.empty)) fun _ => 0 := by
      refine takes_peek.after fun t => ?_
      split
      · exact takes_pure rfl
      · exact takes_expression.after fun e => takes_pure rfl
    refine .advance (by rw [h]; rfl) ?_
    split
    · exact Takes.after (p := fun _ => 0) (takes_failAt _ _) fun _ => hrest
    · exact hrest
  · rename_i h
    refine .advance (by rw [h]; rfl) (takes_identifier.after fun name =>
      takes_remaining.after fun rounds => ?_)
    exact (names_runs.takes_rounds rounds ()).after fun names => takes_pure rfl
  · exact takes_expressionStatement ls

/-- A turn of `moreSimple`: a semicolon and a statement, or the end of the line. -/
def simpleTurn (context : Context) (_ : Unit) : Parse (Turn Unit Code) := do
  if ← accept .semicolon then
    if endsStatement (← peek) then
      return .stop .empty
    let s ← simpleStatement context
    return .again () (.single s ++ ·)
  else
    return .stop .empty

theorem simple_runs :
    RunsInRounds (fun rounds _ => moreSimple context rounds) (simpleTurn context) where
  nil _ := takes_pure rfl
  cons r rs _ := by
    simp only [moreSimple, simpleTurn, bind_assoc]
    refine bind_congr fun more => ?_
    cases more with
    | false => rfl
    | true =>
      simp only [if_true, bind_assoc]
      refine bind_congr fun t => ?_
      split
      · rfl
      · simp only [bind_assoc]
        exact bind_congr fun s => rfl
  takes _ := by
    refine (takes_accept .semicolon).after fun more => ?_
    split
    · refine takes_peek.after fun t => ?_
      split
      · exact takes_pure rfl
      · exact takes_simpleStatement.bind fun s => takes_pure rfl
    · exact takes_pure rfl

theorem takes_simpleLine : Takes (simpleLine context) fun _ => 1 := by
  refine takes_simpleStatement.bind fun first => takes_remaining.after fun rounds =>
    (simple_runs.takes_rounds rounds ()).after fun more => takes_peek.after fun t => ?_
  split
  · exact (takes_expectIf rfl _).after fun _ => takes_pure rfl
  · exact takes_pure rfl

/-! ## Blocks -/

/-- A turn of `untilEnd`: the end of the block, or a statement. -/
def blockTurn (statement : Parse Code) (_ : Unit) : Parse (Turn Unit Code) := do
  if endsBlock (← peek) then
    return .stop .empty
  let s ← statement
  return .again () (s ++ ·)

theorem block_runs {statement : Parse Code} (hstatement : Takes statement fun _ => 1) :
    RunsInRounds (fun rounds _ => untilEnd statement rounds) (blockTurn statement) where
  nil _ := takes_pure rfl
  cons r rs _ := by
    simp only [untilEnd, blockTurn, bind_assoc]
    refine bind_congr fun t => ?_
    split
    · rfl
    · simp only [bind_assoc]
      exact bind_congr fun s => rfl
  takes _ := by
    refine takes_peek.after fun t => ?_
    split
    · exact takes_pure rfl
    · exact hstatement.bind fun s => takes_pure rfl

/-- A parser `statement` takes a lexeme in every context. -/
def StatementsTake (statement : Context → Parse Code) : Prop :=
  ∀ context, Takes (statement context) fun _ => 1

/-- A parser `block` takes a lexeme in every context. -/
def BlocksTake (block : Context → String → Parse Code) : Prop :=
  ∀ context place, Takes (block context place) fun _ => 1

theorem takes_block {statement? : Option (Context → Parse Code)}
    (hstatement : ∀ statement ∈ statement?, StatementsTake statement) :
    BlocksTake (block statement?) := by
  intro context place
  refine (takes_expect .colon _).bind fun _ => (takes_acceptIf rfl).after fun breaks => ?_
  split
  · exact takes_simpleLine.some
  · refine (takes_acceptIf rfl).after fun indented => ?_
    dsimp only
    cases statement? with
    | none =>
      split
      · exact Takes.after (p := fun _ => 0) (takes_fail _) fun _ => takes_fail _
      · exact takes_fail _
    | some statement =>
      have hbody : Takes (do
          let body ← untilEnd (statement context) (← remaining)
          let _ ← acceptIf isDedent
          return body) fun _ => 0 := by
        refine takes_remaining.after fun rounds => ?_
        refine ((block_runs (hstatement statement rfl context)).takes_rounds rounds ()).after
          fun body => ?_
        exact (takes_acceptIf rfl).after fun _ => takes_pure rfl
      split
      · exact Takes.after (p := fun _ => 0) (takes_fail _) fun _ => hbody
      · exact hbody

/-! ## Compound statements -/

section Compound

variable {block : String → Parse Code} (hblock : ∀ place, Takes (block place) fun _ => 1)

/-- A turn of `moreBranches`: an arm with a condition, or the last arm, if there is one. -/
def branchesTurn (block : String → Parse Code) (_ : Unit) :
    Parse (Turn Unit (List Branch × Option (List Stmt) × Scope)) := do
  let loc ← here
  if ← acceptKeyword .elifWord then
    let condition ← expression
    let body ← block "after 'elif' condition"
    return .again () fun (branches, otherwise, scope) =>
      (⟨condition, body.stmts, loc⟩ :: branches, otherwise, body.scope ++ scope)
  else if ← acceptKeyword .elseWord then
    let body ← block "after 'else'"
    return .stop ([], some body.stmts, body.scope)
  else
    return .stop ([], none, .empty)

include hblock

theorem branches_runs :
    RunsInRounds (fun rounds _ => moreBranches block rounds) (branchesTurn block) where
  nil _ := takes_pure rfl
  cons r rs _ := by
    simp only [moreBranches, branchesTurn, bind_assoc]
    refine bind_congr fun loc => bind_congr fun more => ?_
    cases more with
    | true =>
      simp only [if_true, bind_assoc]
      exact bind_congr fun condition => bind_congr fun body => rfl
    | false =>
      simp only [Bool.false_eq_true, if_false, bind_assoc]
      refine bind_congr fun last => ?_
      cases last with
      | true =>
        simp only [if_true, bind_assoc]
        exact bind_congr fun body => rfl
      | false => rfl
  takes _ := by
    refine takes_here.after fun loc => (takes_acceptKeyword .elifWord).after fun more => ?_
    split
    · exact takes_expression.bind fun condition => (hblock _).after fun body => takes_pure rfl
    · refine (takes_acceptKeyword .elseWord).after fun last => ?_
      split
      · exact (hblock _).after fun body => takes_pure rfl
      · exact takes_pure rfl

theorem takes_conditional (loc : Location) : Takes (conditional block loc) fun _ => 0 :=
  takes_expression.after fun _ => (hblock _).after fun _ => takes_remaining.after fun rounds =>
    ((branches_runs hblock).takes_rounds rounds ()).after fun _ => takes_pure rfl

theorem takes_whileStatement (loc : Location) : Takes (whileStatement block loc) fun _ => 0 :=
  takes_expression.after fun _ => (hblock _).after fun _ => takes_pure rfl

theorem takes_forStatement (loc : Location) : Takes (forStatement block loc) fun _ => 0 :=
  takes_identifier.after fun _ => (takes_expectIf rfl _).after fun _ =>
    takes_expression.after fun _ => (hblock _).after fun _ => takes_pure rfl

omit hblock in
/-- A turn of `parametersFrom`: the closing parenthesis, or a parameter with or without a comma. -/
def parametersTurn (params : List String) : Parse (Turn (List String) (List String)) := do
  if (← peek).isSymbol .rightParen then
    return .stop params
  let loc ← here
  let name ← identifier
  if params.contains name then
    failAt loc (.duplicateParameter name)
  if ← accept .comma then
    return .again (params ++ [name]) id
  else
    return .stop (params ++ [name])

omit hblock in
theorem parameters_runs : RunsInRounds parametersFrom parametersTurn where
  nil _ := takes_pure rfl
  cons r rs params := by
    simp only [parametersFrom, parametersTurn, bind_assoc]
    refine bind_congr fun t => ?_
    split
    · rfl
    · simp only [bind_assoc]
      refine bind_congr fun loc => bind_congr fun name => ?_
      split
      · simp only [bind_assoc]
        refine bind_congr fun _ => bind_congr fun more => ?_
        cases more with
        | false => rfl
        | true => exact (id_map _).symm
      · simp only [bind_assoc]
        refine bind_congr fun more => ?_
        cases more with
        | false => rfl
        | true => exact (id_map _).symm
  takes params := by
    refine takes_peek.after fun t => ?_
    split
    · exact takes_pure rfl
    · refine takes_here.after fun loc => takes_identifier.bind fun name => ?_
      have hrest : Takes (do
          if ← accept .comma then
            return Turn.again (params ++ [name]) id
          else
            return Turn.stop (params ++ [name])) fun b => turnCost b - 1 := by
        refine (takes_accept .comma).after fun more => ?_
        split
        · exact takes_pure rfl
        · exact takes_pure rfl
      dsimp only
      split
      · exact Takes.after (p := fun _ => 0) (takes_failAt _ _) fun _ => hrest
      · exact hrest

theorem takes_definition (loc : Location) : Takes (definition block loc) fun _ => 0 :=
  takes_identifier.after fun _ => (takes_expect .leftParen _).after fun _ =>
    takes_remaining.after fun rounds => (parameters_runs.takes_rounds rounds []).after fun _ =>
      (takes_expect .rightParen _).after fun _ => (hblock _).after fun _ => takes_pure rfl

end Compound

/-! ## Statements -/

theorem takes_statementWith {block : Context → String → Parse Code}
    (hblock : BlocksTake block) : StatementsTake (statementWith block) := by
  intro context
  refine fun ls => TakesFrom.next ?_
  dsimp only
  split
  · exact takes_fail _ ls
  · exact takes_fail _ ls
  · rename_i h
    exact .advance (by rw [h]; rfl) (takes_pure rfl)
  · rename_i h
    exact .advance (by rw [h]; rfl)
      ((takes_conditional (hblock _) _).after fun s => takes_pure rfl)
  · rename_i h
    exact .advance (by rw [h]; rfl)
      ((takes_whileStatement (hblock _) _).after fun s => takes_pure rfl)
  · rename_i h
    exact .advance (by rw [h]; rfl)
      ((takes_forStatement (hblock _) _).after fun s => takes_pure rfl)
  · rename_i h
    have hrest := (takes_definition (hblock ⟨false, true⟩) (ahead ls).loc).after (q := fun _ => 0)
      fun s => takes_pure (a := Code.single s) rfl
    refine .advance (by rw [h]; rfl) ?_
    split
    · exact Takes.after (p := fun _ => 0) (takes_failAt _ _) fun _ => hrest
    · exact hrest
  · exact takes_fail _ ls
  · exact takes_fail _ ls
  · exact takes_simpleLine ls

/-- A statement takes a lexeme, by induction on `room`, which is left for blocks. -/
theorem statement_takes (room : Nat) : StatementsTake (statement room) := by
  induction room with
  | zero => exact takes_statementWith (takes_block nofun)
  | succ room ih =>
    refine takes_statementWith (takes_block fun statement h => ?_)
    obtain rfl := Option.some.inj h
    exact ih

/-- A turn of `statementsFrom`: the end of the text, or a statement. -/
def programTurn (_ : Unit) : Parse (Turn Unit (List Stmt)) := do
  if (← peek).isEndOfFile then
    return .stop []
  let code ← statement maxBlockDepth ⟨false, false⟩
  return .again () (code.stmts ++ ·)

theorem program_runs : RunsInRounds (fun rounds _ => statementsFrom rounds) programTurn where
  nil _ := takes_pure rfl
  cons r rs _ := by
    simp only [statementsFrom, programTurn, bind_assoc]
    refine bind_congr fun t => ?_
    split
    · rfl
    · simp only [bind_assoc]
      exact bind_congr fun s => rfl
  takes _ := by
    refine takes_peek.after fun t => ?_
    split
    · exact takes_pure rfl
    · exact (statement_takes _ _).bind fun s => takes_pure rfl

/-- The loop over the statements of a text stops only where `endOfFile` is ahead. -/
theorem programTurn_stop {body : List Stmt} {rest : List Lexeme}
    (h : programTurn () ls = .ok (.stop body, rest)) : (ahead rest).token = .endOfFile := by
  change (if (ahead ls).token.isEndOfFile then _ else _ : Parse (Turn Unit (List Stmt))) ls = _ at h
  split at h
  · rename_i hend
    cases h
    generalize (ahead ls).token = t at hend
    cases t <;> first | rfl | cases hend
  · change Except.bind (statement maxBlockDepth ⟨false, false⟩ ls) _ = _ at h
    cases hstatement : statement maxBlockDepth ⟨false, false⟩ ls with
    | error e => rw [hstatement] at h; cases h
    | ok r => rw [hstatement] at h; cases h

/-- The statements of a whole text end where `endOfFile` is ahead. -/
theorem statements_end {body : List Stmt} {rest : List Lexeme} (hls : HasEnd ls)
    (h : statements ls = .ok (body, rest)) : (ahead rest).token = .endOfFile :=
  program_runs.loop.ends (s := ()) (fun _ hturn => programTurn_stop hturn) hls h

end Parse

end Stepper
