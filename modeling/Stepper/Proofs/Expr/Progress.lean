import Stepper.Proofs.Parse.Takes

/-!
# Every turn of the expression parsers takes a lexeme

* `itemsTurn`, `comparisonsTurn`, `argumentsTurn`, `textsTurn`: the turns of the parsers that repeat
  a step, and that these run as loops of them.
* `Parse.levels_take`: an expression takes at least one lexeme at every level.
-/

namespace Stepper

namespace Parse

variable {α : Type} {ls : List Lexeme}

/-! ## Items with commas between them -/

/-- A turn of `itemsUpTo`: the closing symbol, or an item with or without a comma. -/
def itemsTurn (close : Symbol) (item : Parse α) (_ : Unit) : Parse (Turn Unit (List α)) := do
  if (← peek).isSymbol close then
    return .stop []
  let first ← item
  if ← accept .comma then
    return .again () (first :: ·)
  else
    return .stop [first]

/-- A `part` and a comma, after which the loop goes on, or a part alone, which is the last. -/
theorem takes_part {σ : Type} {part : Parse β} (hpart : Takes part fun _ => 1) (state : β → σ)
    (finish : β → α → α) (last : β → α) :
    Takes (do
      let b ← part
      if ← accept .comma then
        return Turn.again (state b) (finish b)
      else
        return Turn.stop (last b)) turnCost := by
  refine hpart.bind fun b => (takes_accept .comma).after fun more => ?_
  split
  · exact takes_pure rfl
  · exact takes_pure rfl

/-- A `loop` that reads a `part`, and after a comma goes on, does so in a turn. -/
theorem part_run {σ : Type} (part : Parse β) (loop : σ → Parse α) (state : β → σ)
    (finish : β → α → α) (ending : α) :
    (do
      let b ← part
      if ← accept .comma then
        let a ← loop (state b)
        return finish b a
      else
        return finish b ending : Parse α) =
    (do
      let b ← part
      if ← accept .comma then
        return Turn.again (state b) (finish b)
      else
        return Turn.stop (finish b ending) : Parse (Turn σ α)) >>= Turn.run loop := by
  simp only [bind_assoc]
  refine bind_congr fun b => bind_congr fun more => ?_
  cases more <;> rfl

theorem items_runs {close : Symbol} {item : Parse α} (hitem : Takes item fun _ => 1) :
    RunsInRounds (fun rounds _ => itemsUpTo close item rounds) (itemsTurn close item) where
  nil _ := takes_pure rfl
  cons r rs _ := by
    simp only [itemsUpTo, itemsTurn, bind_assoc]
    refine bind_congr fun t => ?_
    split
    · rfl
    · exact part_run item (fun _ => itemsUpTo close item rs) (fun _ => ()) List.cons []
  takes _ := by
    refine fun ls => TakesFrom.peek ?_
    split
    · exact .pure rfl
    · exact takes_part hitem _ _ _ ls

theorem takes_items {close : Symbol} {item : Parse α} (hitem : Takes item fun _ => 1) :
    Takes (items close item) fun _ => 0 :=
  takes_remaining.after fun rounds => (items_runs hitem).takes_rounds rounds ()

/-! ## Chains -/

theorem takes_chain {operand : Parse Expr} {join? : Token → Option (Expr → Expr → Location → Expr)}
    (hoperand : Takes operand fun _ => 1) (links : Nat) (left : Expr) :
    Takes (chain operand join? links left) fun _ => 0 := by
  induction links generalizing left with
  | zero =>
    unfold chain
    refine fun ls => TakesFrom.next ?_
    split
    · exact .pure rfl
    · exact (takes_advance ls).after fun _ => takes_fail _
  | succ links ih =>
    unfold chain
    refine fun ls => TakesFrom.next ?_
    split
    · exact .pure rfl
    · exact (takes_advance ls).after fun _ => hoperand.after fun right => ih _

theorem compareOp?_endOfFile {t : Token} {op : CompareOp} (h : compareOp? t = some op) :
    t.isEndOfFile = false := by
  cases t <;> first | rfl | cases h

theorem takes_comparison? : Takes comparison? fun op => op.isSome.toNat := by
  refine fun ls => TakesFrom.peek ?_
  split
  · rename_i h
    refine (takesFrom_advance (by rw [h]; rfl)).bind fun _ => ?_
    exact (takes_acceptKeyword .notWord).after fun same => takes_pure rfl
  · rename_i h
    refine TakesFrom.peekSecond ?_
    split
    · refine (takesFrom_advance (by rw [h]; rfl)).bind fun _ => ?_
      exact takes_advance.after fun _ => takes_pure rfl
    · exact takes_fail _ ls
  · split
    · rename_i op h
      exact (takesFrom_advance (compareOp?_endOfFile h)).bind fun _ => takes_pure rfl
    · exact .pure rfl

/-- A turn of `comparisons`: an operator and its operand, if there is one. -/
def comparisonsTurn (operand : Parse Expr) (_ : Unit) :
    Parse (Turn Unit (List (CompareOp × Expr))) := do
  match ← comparison? with
  | none => return .stop []
  | some op =>
    let right ← operand
    return .again () ((op, right) :: ·)

theorem comparisons_runs {operand : Parse Expr} (hoperand : Takes operand fun _ => 1) :
    RunsInRounds (fun rounds _ => comparisons operand rounds) (comparisonsTurn operand) where
  nil _ := takes_pure rfl
  cons r rs _ := by
    simp only [comparisons, comparisonsTurn, bind_assoc]
    refine bind_congr fun op => ?_
    cases op with
    | none => rfl
    | some op =>
      simp only [bind_assoc]
      exact bind_congr fun right => rfl
  takes _ := by
    refine takes_comparison?.after fun op => ?_
    split
    · exact takes_pure rfl
    · exact hoperand.bind fun right => takes_pure rfl

/-! ## Arguments -/

theorem takes_keywordName? : Takes keywordName? fun _ => 0 := by
  refine fun ls => TakesFrom.peek (TakesFrom.peekSecond ?_)
  split
  · exact (takes_advance ls).after fun _ => takes_advance.after fun _ => takes_pure rfl
  · exact .pure rfl

/-- A turn of `argumentsAfter`: the closing parenthesis, or an argument with or without a comma. -/
def argumentsTurn (value : Parse Expr) (names : List String) :
    Parse (Turn (List String) (List Expr × List (String × Expr))) := do
  if (← peek).isSymbol .rightParen then
    return .stop ([], [])
  let loc ← here
  match ← keywordName? with
  | some name =>
    if names.contains name then
      failAt loc (.repeatedKeyword name)
    let v ← value
    if ← accept .comma then
      return .again (name :: names) fun r => (r.1, (name, v) :: r.2)
    else
      return .stop ([], [(name, v)])
  | none =>
    if !names.isEmpty then
      fail .positionalAfterKeyword
    let v ← value
    if ← accept .comma then
      return .again names fun r => (v :: r.1, r.2)
    else
      return .stop ([v], [])

theorem arguments_runs {value : Parse Expr} (hvalue : Takes value fun _ => 1) :
    RunsInRounds (fun rounds names => argumentsAfter value rounds names) (argumentsTurn value) where
  nil _ := takes_pure rfl
  cons r rs names := by
    simp only [argumentsAfter, argumentsTurn, bind_assoc]
    refine bind_congr fun t => ?_
    split
    · rfl
    · simp only [bind_assoc]
      refine bind_congr fun loc => bind_congr fun name? => ?_
      -- An argument by name and one by position differ in what is kept of them only.
      cases name? with
      | some name =>
        have hpart := part_run value (argumentsAfter value rs)
          (fun _ => name :: names) (fun v r => (r.1, (name, v) :: r.2)) ([], [])
        dsimp only
        split
        · rw [bind_assoc]
          exact bind_congr fun _ => hpart
        · exact hpart
      | none =>
        have hpart := part_run value (argumentsAfter value rs)
          (fun _ => names) (fun v r => (v :: r.1, r.2)) ([], [])
        dsimp only
        split
        · rw [bind_assoc]
          exact bind_congr fun _ => hpart
        · exact hpart
  takes names := by
    refine fun ls => TakesFrom.peek ?_
    split
    · exact .pure rfl
    · refine (takes_here ls).after fun loc => takes_keywordName?.after fun name? => ?_
      cases name? with
      | some name =>
        have hrest := takes_part hvalue (fun _ => name :: names)
          (fun v r => (r.1, (name, v) :: r.2)) fun v => (([] : List Expr), [(name, v)])
        dsimp only
        split
        · exact Takes.after (p := fun _ => 0) (takes_failAt loc _) fun _ => hrest
        · exact hrest
      | none =>
        have hrest := takes_part hvalue (fun _ => names) (fun v r => (v :: r.1, r.2))
          fun v => ([v], ([] : List (String × Expr)))
        dsimp only
        split
        · exact Takes.after (p := fun _ => 0) (takes_fail _) fun _ => hrest
        · exact hrest

/-! ## Texts -/

/-- A turn of `adjacentTexts`: a string, if there is one. -/
def textsTurn (_ : Unit) : Parse (Turn Unit String) := do
  match ← peek with
  | .str s =>
    advance
    return .again () (s ++ ·)
  | _ => return .stop ""

theorem texts_runs : RunsInRounds (fun rounds _ => adjacentTexts rounds) textsTurn where
  nil _ := takes_pure rfl
  cons r rs _ := by
    simp only [adjacentTexts, textsTurn, bind_assoc]
    refine bind_congr fun t => ?_
    cases t with
    | str s =>
      simp only [bind_assoc]
      exact bind_congr fun _ => rfl
    | _ => rfl
  takes _ := by
    refine fun ls => TakesFrom.peek ?_
    split
    · rename_i h
      exact (takesFrom_advance (by rw [h]; rfl)).bind fun _ => takes_pure rfl
    · exact .pure rfl

/-! ## The levels -/

/-- An expression takes a lexeme, whichever of the parsers in `levels` reads it. -/
structure Levels.Take (levels : Levels) : Prop where
  disjunction : Takes levels.disjunction fun _ => 1
  negation : Takes levels.negation fun _ => 1
  signed : Takes levels.signed fun _ => 1

theorem beyond_take : Levels.Take beyond :=
  ⟨takes_fail _, takes_fail _, takes_fail _⟩

variable {deeper : Levels} (hdeeper : Levels.Take deeper)
include hdeeper

theorem takes_entry : Takes (entry deeper.disjunction) fun _ => 1 :=
  hdeeper.disjunction.bind fun _ => (takes_expect .colon _).after fun _ =>
    hdeeper.disjunction.after fun _ => takes_pure rfl

theorem takes_arguments : Takes (arguments deeper.disjunction) fun _ => 0 :=
  takes_remaining.after fun rounds => (arguments_runs hdeeper.disjunction).takes_rounds rounds []

theorem takes_primary : Takes (primary deeper) fun _ => 1 := by
  refine fun ls => TakesFrom.next ?_
  dsimp only
  split
  case h_3 h =>
    refine .advance (by rw [h]; rfl) (takes_remaining.after fun rounds => ?_)
    exact (texts_runs.takes_rounds rounds ()).after fun texts => takes_pure rfl
  case h_8 h =>
    refine .advance (by rw [h]; rfl) (hdeeper.disjunction.after fun e => ?_)
    exact (takes_expect .rightParen _).after fun _ => takes_pure rfl
  case h_9 h =>
    refine .advance (by rw [h]; rfl) ((takes_items hdeeper.disjunction).after fun values => ?_)
    exact (takes_expect .rightBracket _).after fun _ => takes_pure rfl
  case h_10 h =>
    refine .advance (by rw [h]; rfl) ((takes_items (takes_entry hdeeper)).after fun entries => ?_)
    exact (takes_expect .rightBrace _).after fun _ => takes_pure rfl
  case h_11 => exact takes_fail _ ls
  all_goals
    rename_i h
    exact .advance (by rw [h]; rfl) (takes_pure rfl)

theorem takes_postfixed? (e : Expr) : Takes (postfixed? deeper e) fun _ => 0 := by
  refine fun ls => TakesFrom.next ?_
  split
  · refine (takes_advance ls).after fun _ => (takes_arguments hdeeper).after fun r => ?_
    exact (takes_expect .rightParen _).after fun _ => takes_pure rfl
  · refine (takes_advance ls).after fun _ => hdeeper.disjunction.after fun key => ?_
    exact (takes_expect .rightBracket _).after fun _ => takes_pure rfl
  · exact (takes_advance ls).after fun _ => takes_identifier.after fun name => takes_pure rfl
  · exact .pure rfl

theorem takes_postfixes (links : Nat) (e : Expr) : Takes (postfixes deeper links e) fun _ => 0 := by
  induction links generalizing e with
  | zero =>
    refine fun ls => TakesFrom.peek ?_
    split
    · exact takes_fail _ ls
    · exact .pure rfl
  | succ links ih =>
    refine (takes_postfixed? hdeeper e).after fun e? => ?_
    cases e? with
    | none => exact takes_pure rfl
    | some e => exact ih e

theorem takes_postfixed (room : Nat) : Takes (postfixed room deeper) fun _ => 1 :=
  (takes_primary hdeeper).bind fun e => takes_postfixes hdeeper _ e

theorem takes_power (room : Nat) : Takes (power room deeper) fun _ => 1 := by
  refine (takes_postfixed hdeeper room).bind fun base => takes_here.after fun loc =>
    (takes_accept .starStar).after fun isPower => ?_
  split
  · exact hdeeper.signed.after fun exponent => takes_pure rfl
  · exact takes_pure rfl

theorem takes_signed (room : Nat) : Takes (signed room deeper) fun _ => 1 := by
  refine fun ls => TakesFrom.next ?_
  split
  · exact (takes_advance ls).after fun _ => hdeeper.signed.bind fun e => takes_pure rfl
  · exact takes_power hdeeper room ls

theorem takes_product (room : Nat) : Takes (product room deeper) fun _ => 1 :=
  (takes_signed hdeeper room).bind fun first => takes_chain (takes_signed hdeeper room) _ first

theorem takes_sum (room : Nat) : Takes (sum room deeper) fun _ => 1 :=
  (takes_product hdeeper room).bind fun first => takes_chain (takes_product hdeeper room) _ first

theorem takes_comparison (room : Nat) : Takes (comparison room deeper) fun _ => 1 := by
  refine (takes_sum hdeeper room).bind fun first => takes_remaining.after fun rounds => ?_
  refine ((comparisons_runs (takes_sum hdeeper room)).takes_rounds rounds ()).after fun more => ?_
  split
  · exact takes_pure rfl
  · exact takes_pure rfl

theorem takes_negation (room : Nat) : Takes (negation room deeper) fun _ => 1 := by
  refine takes_here.after fun loc => (takes_acceptKeyword .notWord).after fun isNot => ?_
  split
  · exact hdeeper.negation.bind fun e => takes_pure rfl
  · exact takes_comparison hdeeper room

theorem takes_conjunction (room : Nat) : Takes (conjunction room deeper) fun _ => 1 :=
  (takes_negation hdeeper room).bind fun first => takes_chain (takes_negation hdeeper room) _ first

theorem takes_disjunction (room : Nat) : Takes (disjunction room deeper) fun _ => 1 :=
  (takes_conjunction hdeeper room).bind fun first =>
    takes_chain (takes_conjunction hdeeper room) _ first

theorem levelsOver_take (room : Nat) : Levels.Take (levelsOver room deeper) :=
  ⟨takes_disjunction hdeeper room, takes_negation hdeeper room, takes_signed hdeeper room⟩

omit hdeeper

/-- Expressions take a lexeme, by induction on `room`, which is left for further levels. -/
theorem levels_take (room : Nat) : Levels.Take (levels room) := by
  induction room with
  | zero => exact levelsOver_take beyond_take 0
  | succ room ih => exact levelsOver_take ih (room + 1)

theorem takes_expression : Takes expression fun _ => 1 :=
  (levels_take _).disjunction

end Parse

end Stepper
