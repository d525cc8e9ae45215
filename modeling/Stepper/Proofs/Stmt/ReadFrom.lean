import Stepper.Proofs.Compilation
import Stepper.Proofs.Expr.First
import Stepper.Proofs.Stmt.Everywhere

/-!
# Statements against the lexemes that they are read from

* `Located`: a place where a token stands. `hasHollow`: whether an indentation holds nothing but
  line ends.
* `Stmt.ReadFrom`: a statement and its branches are at places of tokens, and it has an empty block
  only if there is a hollow indentation.
* `Parse.Within`: what a parser yields on the lexemes at the end of a list. It is shown for a parser
  along its steps.
* `Program.ofSource_readFrom`: all statements of a program are read from its lexemes.
-/

namespace Stepper

/-- A token of the lexemes `all` that is not layout stands at `loc`. -/
def Located (all : List Lexeme) (loc : Location) : Prop :=
  ∃ l ∈ all, l.token.isLayout = false ∧ l.loc = loc

/-- The indentation that opens before the lexemes `after` holds nothing but line ends. -/
def endsAtOnce (after : List Lexeme) : Bool :=
  Parse.endsBlock (ahead (after.dropWhile (·.token.isNewline))).token

/-- Whether some indentation holds nothing but line ends, as in an `indent`, a `newline` and a
`dedent`. -/
def hasHollow : List Lexeme → Bool
  | [] => false
  | l :: after => (Parse.isIndent l.token && endsAtOnce after) || hasHollow after

/-- The arms of a conditional that have a condition: `if` and each `elif`. -/
def Stmt.branches : Stmt → List Branch
  | conditional branches _ _ => branches
  | _ => []

theorem Stmt.branches_eq_nil {s : Stmt} (h : s.blocks = []) : s.branches = [] := by
  cases s with
  | conditional branches otherwise loc => exact List.map_eq_nil_iff.1 (List.append_eq_nil_iff.1 h).1
  | _ => rfl

/-- A statement `s` that is read from the lexemes `all`: it and its branches are at places of
tokens, and a block of it is empty only if there is a hollow indentation. -/
structure Stmt.ReadFrom (all : List Lexeme) (s : Stmt) : Prop where
  located : Located all s.loc
  branches : ∀ b ∈ s.branches, Located all b.loc
  hollow : [] ∈ s.blocks → hasHollow all = true

theorem endsAtOnce_of_endsBlock {after : List Lexeme}
    (h : Parse.endsBlock (ahead after).token = true) : endsAtOnce after = true := by
  cases after with
  | nil => rfl
  | cons l after =>
    have hl : l.token.isNewline = false := by
      cases hl : l.token <;> first | rfl | (rw [ahead_cons, hl] at h; cases h)
    rwa [endsAtOnce, List.dropWhile_cons_of_neg (by simp [hl])]

theorem endsAtOnce_cons_newline {after : List Lexeme} {l : Lexeme} (hl : l.token = .newline) :
    endsAtOnce (l :: after) = endsAtOnce after := by
  rw [endsAtOnce, List.dropWhile_cons_of_pos (by rw [hl]; rfl)]
  rfl

/-- An indentation `l` among `all` that ends at once is a hollow one. -/
theorem hasHollow_of_suffix {all after : List Lexeme} {l : Lexeme} (h : l :: after <:+ all)
    (hl : Parse.isIndent l.token = true) (hafter : endsAtOnce after = true) :
    hasHollow all = true := by
  induction all with
  | nil => cases List.suffix_nil.1 h
  | cons m all ih =>
    rcases List.suffix_cons_iff.1 h with heq | h
    · obtain ⟨rfl, rfl⟩ := List.cons.inj heq
      simp [hasHollow, hl, hafter]
    · simp [hasHollow, ih h]

/-- All statements of `body`, and those in their blocks, are read from `all`. -/
def BlockReadFrom (all : List Lexeme) (body : List Stmt) : Prop :=
  ∀ c, BlockEverywhere (fun _ s => s.ReadFrom all) c body

variable {all ls : List Lexeme} {body more : List Stmt} {s : Stmt}

theorem blockReadFrom_nil : BlockReadFrom all [] :=
  fun _ => blockEverywhere_nil

theorem BlockReadFrom.append (hbody : BlockReadFrom all body) (hmore : BlockReadFrom all more) :
    BlockReadFrom all (body ++ more) :=
  fun c => (hbody c).append (hmore c)

/-- A statement `s` with its blocks. -/
theorem blockReadFrom_singleton (h : s.ReadFrom all)
    (hblocks : ∀ b ∈ s.blocks, BlockReadFrom all b) : BlockReadFrom all [s] :=
  fun c => blockEverywhere_singleton (.intro h fun b hb => hblocks b hb (c.inside s))

/-- The lexeme ahead of `ls` is one of `all`, if it is not layout. -/
theorem located_ahead (hls : ls <:+ all) (h : (ahead ls).token.isLayout = false) :
    Located all (ahead ls).loc := by
  cases ls with
  | nil => cases h
  | cons l ls => exact ⟨l, hls.mem List.mem_cons_self, h, rfl⟩

namespace Parse

/-! ## Parsers at the end of a list of lexemes -/

/-- From `ls` on, the parser `x` leaves a suffix of `all`, and what it yields has the property
`Q`. -/
def WithinFrom (all ls : List Lexeme) (x : Parse α) (Q : α → Prop) : Prop :=
  ∀ a rest, x ls = .ok (a, rest) → rest <:+ all ∧ Q a

/-- From every suffix of `all`, the parser `x` leaves a suffix, and what it yields has the property
`Q`. -/
def Within (all : List Lexeme) (x : Parse α) (Q : α → Prop) : Prop :=
  ∀ ls, ls <:+ all → WithinFrom all ls x Q

variable {x : Parse α} {f : α → Parse β} {P : α → Prop} {Q : β → Prop} {p : α → Nat}
  {context : Context}

theorem WithinFrom.bind (hx : WithinFrom all ls x P) (hf : ∀ a, P a → Within all (f a) Q) :
    WithinFrom all ls (x >>= f) Q := by
  intro b rest hrun
  change Except.bind (x ls) _ = _ at hrun
  cases hfirst : x ls with
  | error e => rw [hfirst] at hrun; cases hrun
  | ok r =>
    rw [hfirst] at hrun
    obtain ⟨hrest, hP⟩ := hx r.1 r.2 hfirst
    exact hf r.1 hP r.2 hrest b rest hrun

theorem Within.bind (hx : Within all x P) (hf : ∀ a, P a → Within all (f a) Q) :
    Within all (x >>= f) Q :=
  fun ls hls => (hx ls hls).bind hf

theorem Takes.withinFrom (hx : Takes x p) (hls : ls <:+ all) :
    WithinFrom all ls x fun _ => True := by
  intro a rest hrun
  obtain ⟨taken, rfl, -, -⟩ := hx ls a rest hrun
  exact ⟨(List.suffix_append taken rest).trans hls, trivial⟩

/-- A step `x` whose result plays no part. -/
theorem Within.after (hx : Takes x p) (hf : ∀ a, Within all (f a) Q) : Within all (x >>= f) Q :=
  fun _ hls => (hx.withinFrom hls).bind fun a _ => hf a

theorem within_pure {a : α} (h : P a) : Within all (pure a) P := by
  intro ls hls b rest hrun
  cases hrun
  exact ⟨hls, h⟩

theorem within_failAt (loc : Location) (fault : SyntaxFault) :
    Within all (failAt loc fault : Parse α) P :=
  fun _ _ => nofun

theorem within_fail (fault : SyntaxFault) : Within all (fail fault : Parse α) P :=
  fun _ _ => nofun

/-- Nothing comes after a failure, so `f` does not matter. -/
theorem within_fail_bind (fault : SyntaxFault) : Within all (fail fault >>= f) Q := by
  have hnothing : Within all (fail fault : Parse α) fun _ => False := within_fail fault
  exact hnothing.bind fun _ h => h.elim

theorem within_failAt_bind (loc : Location) (fault : SyntaxFault) :
    Within all (failAt loc fault >>= f) Q := by
  have hnothing : Within all (failAt loc fault : Parse α) fun _ => False := within_failAt loc fault
  exact hnothing.bind fun _ h => h.elim

theorem WithinFrom.advance {f : Unit → Parse β} (hls : ls <:+ all) (h : Within all (f ()) Q) :
    WithinFrom all ls (Parse.advance >>= f) Q :=
  Within.after takes_advance (fun _ => h) ls hls

/-- A look at the lexeme ahead of `ls`. -/
theorem WithinFrom.next {f : Lexeme → Parse β} (h : WithinFrom all ls (f (ahead ls)) Q) :
    WithinFrom all ls (next >>= f) Q := h

theorem WithinFrom.here {f : Location → Parse β} (h : WithinFrom all ls (f (ahead ls).loc) Q) :
    WithinFrom all ls (here >>= f) Q := h

theorem WithinFrom.remaining {f : List Lexeme → Parse β} (h : WithinFrom all ls (f ls) Q) :
    WithinFrom all ls (remaining >>= f) Q := h

/-- After an expression it is known that a token stands where it began, ahead of `ls`. -/
theorem WithinFrom.expression {f : Expr → Parse β} (hls : ls <:+ all)
    (hf : Located all (ahead ls).loc → ∀ e, Within all (f e) Q) :
    WithinFrom all ls (Parse.expression >>= f) Q := by
  have hplace : WithinFrom all ls Parse.expression fun _ => Located all (ahead ls).loc := by
    intro e rest hrun
    exact ⟨(takes_expression.withinFrom hls e rest hrun).1,
      located_ahead hls (begins_expression ls e rest hrun)⟩
  exact hplace.bind fun e h => hf h e

/-- After the keyword `k` was taken it is known that it stood ahead of `ls`. -/
theorem WithinFrom.acceptKeyword {k : Keyword} {f : Bool → Parse β} (hls : ls <:+ all)
    (hf : ∀ found, (found = true → Located all (ahead ls).loc) → Within all (f found) Q) :
    WithinFrom all ls (Parse.acceptKeyword k >>= f) Q := by
  have hplace : WithinFrom all ls (Parse.acceptKeyword k)
      fun found => found = true → Located all (ahead ls).loc := by
    intro found rest hrun
    refine ⟨((takes_acceptKeyword k).withinFrom hls found rest hrun).1, fun hfound => ?_⟩
    refine located_ahead hls ?_
    cases htest : (ahead ls).token.isKeyword k with
    | true => rw [Token.isKeyword_iff.1 htest]; rfl
    | false =>
      have hnot : Parse.acceptKeyword k ls = .ok (false, ls) := acceptIf_of_false htest
      rw [hnot] at hrun
      cases hrun
      cases hfound
  exact hplace.bind hf

/-! ## Simple statements -/

theorem expressionStatement_located :
    Within all expressionStatement fun r => Located all r.1.loc := by
  refine fun ls hls => .here (.expression hls fun hloc e =>
    .after (takes_accept _) fun assigns => ?_)
  split
  · refine .after (takes_asTarget e) fun target => .after takes_expression fun value =>
      .after takes_peek fun t => ?_
    dsimp only
    split
    · exact within_fail_bind _
    · exact within_pure hloc
  · refine .after takes_peek fun t => ?_
    split
    · exact .after takes_advance fun _ => .after (takes_asTarget e) fun target =>
        .after takes_expression fun value => within_pure hloc
    · exact within_pure hloc

theorem simpleStatement_located :
    Within all (simpleStatement context) fun r => Located all r.1.loc := by
  refine fun ls hls => .next ?_
  have hloc (h : (ahead ls).token.isLayout = false) := located_ahead hls h
  dsimp only
  split
  case h_1 h =>
    rw [h] at hloc
    exact .advance hls (within_pure (hloc rfl))
  case h_2 h =>
    rw [h] at hloc
    refine .advance hls ?_
    split
    · exact within_pure (hloc rfl)
    · exact within_failAt _ _
  case h_3 h =>
    rw [h] at hloc
    refine .advance hls ?_
    split
    · exact within_pure (hloc rfl)
    · exact within_failAt _ _
  case h_4 h =>
    rw [h] at hloc
    refine .advance hls ?_
    split
    · exact within_failAt_bind _ _
    · refine .after takes_peek fun t => ?_
      split
      · exact within_pure (hloc rfl)
      · exact .after takes_expression fun e => within_pure (hloc rfl)
  case h_5 h =>
    rw [h] at hloc
    exact .advance hls (.after takes_identifier fun name => .after takes_remaining fun rounds =>
      .after (names_runs.takes_rounds rounds ()) fun names => within_pure (hloc rfl))
  case h_6 => exact expressionStatement_located ls hls

/-- A simple statement has no branches and no blocks. -/
theorem simpleStatement_readFrom :
    Within all (simpleStatement context) fun r => BlockReadFrom all [r.1] := by
  intro ls hls r rest hrun
  obtain ⟨hrest, hloc⟩ := simpleStatement_located ls hls r rest hrun
  obtain ⟨hblocks, -⟩ := simpleStatement_simple context ls r rest hrun
  have hbranches := Stmt.branches_eq_nil hblocks
  exact ⟨hrest, blockReadFrom_singleton ⟨hloc, by simp [hbranches], by simp [hblocks]⟩
    (by simp [hblocks])⟩

theorem moreSimple_readFrom (rounds : List Lexeme) :
    Within all (moreSimple context rounds) fun code => BlockReadFrom all code.stmts := by
  induction rounds with
  | nil => exact within_pure blockReadFrom_nil
  | cons _ rounds ih =>
    refine .after (takes_accept _) fun more => ?_
    split
    · refine .after takes_peek fun t => ?_
      split
      · exact within_pure blockReadFrom_nil
      · exact simpleStatement_readFrom.bind fun s hs => ih.bind fun rest hrest =>
          within_pure (hs.append hrest)
    · exact within_pure blockReadFrom_nil

theorem simpleLine_readFrom :
    Within all (simpleLine context) fun code => BlockReadFrom all code.stmts ∧ code.stmts ≠ [] := by
  refine simpleStatement_readFrom.bind fun first hfirst => .after takes_remaining fun rounds =>
    (moreSimple_readFrom rounds).bind fun rest hrest => .after takes_peek fun t => ?_
  have hline : BlockReadFrom all (Code.single first ++ rest).stmts ∧
      (Code.single first ++ rest).stmts ≠ [] :=
    ⟨hfirst.append hrest, List.cons_ne_nil first.1 rest.stmts⟩
  split
  · exact .after (takes_expectIf rfl _) fun _ => within_pure hline
  · exact within_pure hline

/-! ## Blocks -/

/-- From `ls` on, the parser yields a statement, unless it takes just one `newline`. -/
def YieldsOrBreaks (ls : List Lexeme) (statement : Parse Code) : Prop :=
  ∀ code rest, statement ls = .ok (code, rest) → code.stmts = [] →
    ∃ l, ls = l :: rest ∧ l.token = .newline

/-- In every context the parser `statement` reads statements from `all`. -/
structure StatementsRead (all : List Lexeme) (statement : Context → Parse Code) : Prop where
  readFrom : ∀ c, Within all (statement c) fun code => BlockReadFrom all code.stmts
  yields : ∀ c ls, YieldsOrBreaks ls (statement c)

/-- What is read as a block: its statements are read from `all`, and there are some, unless there is
a hollow indentation. -/
structure IsBlock (all : List Lexeme) (body : List Stmt) : Prop where
  readFrom : BlockReadFrom all body
  hollow : body = [] → hasHollow all = true

theorem untilEnd_readFrom {statement : Parse Code}
    (hstatement : Within all statement fun code => BlockReadFrom all code.stmts)
    (rounds : List Lexeme) :
    Within all (untilEnd statement rounds) fun code => BlockReadFrom all code.stmts := by
  induction rounds with
  | nil => exact within_pure blockReadFrom_nil
  | cons _ rounds ih =>
    refine .after takes_peek fun t => ?_
    split
    · exact within_pure blockReadFrom_nil
    · exact hstatement.bind fun s hs => ih.bind fun rest hrest => within_pure (hs.append hrest)

/-- An indentation from which `untilEnd` reads no statements ends at once. -/
theorem untilEnd_endsAtOnce {statement : Parse Code}
    (hstatement : ∀ ls, YieldsOrBreaks ls statement) {rounds rest : List Lexeme} {code : Code}
    (hrounds : ls.length ≤ rounds.length)
    (hrun : untilEnd statement rounds ls = .ok (code, rest)) (hnone : code.stmts = []) :
    endsAtOnce ls = true := by
  induction rounds generalizing ls code with
  | nil =>
    obtain rfl := List.length_eq_zero_iff.1 (Nat.le_zero.1 hrounds)
    rfl
  | cons _ rounds ih =>
    rw [untilEnd, bind_of_ok peek_run] at hrun
    split at hrun
    · rename_i hends
      exact endsAtOnce_of_endsBlock hends
    · obtain ⟨s, mid, hs, hmore⟩ := ok_of_bind hrun
      obtain ⟨more, last, hmore, hlast⟩ := ok_of_bind hmore
      cases hlast
      obtain ⟨hnoneHere, hnoneLater⟩ := List.append_eq_nil_iff.1 hnone
      -- No statement came of it, so just a `newline` was taken; the rest ends at once as well.
      obtain ⟨l, rfl, hl⟩ := hstatement ls s mid hs hnoneHere
      rw [List.length_cons, List.length_cons] at hrounds
      rw [endsAtOnce_cons_newline hl]
      exact ih (Nat.le_of_succ_le_succ hrounds) hmore hnoneLater

/-- A step inwards is looked for: it comes next, as `l`, or one goes on without it. -/
theorem WithinFrom.acceptIndent {f : Bool → Parse β} (hls : ls <:+ all)
    (hno : WithinFrom all ls (f false) Q)
    (hyes : ∀ l mid, isIndent l.token = true → l :: mid <:+ all →
      WithinFrom all mid (f true) Q) :
    WithinFrom all ls (acceptIf isIndent >>= f) Q := by
  intro b rest hrun
  cases htest : isIndent (ahead ls).token with
  | false =>
    rw [bind_of_ok (acceptIf_of_false htest)] at hrun
    exact hno b rest hrun
  | true =>
    cases ls with
    | nil => cases htest
    | cons l mid =>
      rw [ahead_cons] at htest
      rw [bind_of_ok (acceptIf_of_true htest (isEndOfFile_of_test rfl htest))] at hrun
      exact hyes l mid htest hls b rest hrun

theorem block_readFrom {statement? : Option (Context → Parse Code)}
    (hstatement : ∀ statement ∈ statement?, StatementsRead all statement) (context : Context)
    (place : String) :
    Within all (block statement? context place) fun code => IsBlock all code.stmts := by
  refine .after (takes_expect .colon _) fun _ => .after (takes_acceptIf rfl) fun breaks => ?_
  split
  · intro ls hls code rest hrun
    obtain ⟨hrest, hread, hsome⟩ := simpleLine_readFrom ls hls code rest hrun
    exact ⟨hrest, hread, fun hnone => absurd hnone hsome⟩
  · refine fun ls hls => .acceptIndent hls ?_ fun l mid hindent hmid => ?_
    · exact within_fail_bind _ ls hls
    · cases statement? with
      | none => exact within_fail _ mid ((List.suffix_cons l mid).trans hmid)
      | some statement =>
        obtain ⟨hread, hyields⟩ := hstatement statement rfl
        have hsuffix : mid <:+ all := (List.suffix_cons l mid).trans hmid
        have hbody : WithinFrom all mid (untilEnd (statement context) mid)
            (fun code => IsBlock all code.stmts) := by
          intro code rest hrun
          obtain ⟨hrest, hcode⟩ := untilEnd_readFrom (hread context) mid mid hsuffix code rest hrun
          refine ⟨hrest, hcode, fun hnone => ?_⟩
          exact hasHollow_of_suffix hmid hindent
            (untilEnd_endsAtOnce (hyields context) (Nat.le_refl _) hrun hnone)
        exact WithinFrom.remaining (WithinFrom.bind hbody fun code hcode =>
          .after (takes_acceptIf rfl) fun _ => within_pure hcode)

/-! ## Compound statements -/

/-- A statement `s` with blocks is read from `all` if its places are, and its blocks are. -/
theorem blockReadFrom_compound (hloc : Located all s.loc)
    (hbranches : ∀ b ∈ s.branches, Located all b.loc) (hblocks : ∀ b ∈ s.blocks, IsBlock all b) :
    BlockReadFrom all [s] :=
  blockReadFrom_singleton ⟨hloc, hbranches, fun hempty => (hblocks [] hempty).hollow rfl⟩
    fun b hb => (hblocks b hb).readFrom

section Compound

variable {block : String → Parse Code} {loc : Location}
  (hblock : ∀ place, Within all (block place) fun code => IsBlock all code.stmts)
  (hloc : Located all loc)
include hblock

theorem moreBranches_readFrom (rounds : List Lexeme) :
    Within all (moreBranches block rounds) fun (branches, otherwise, _) =>
      (∀ b ∈ branches, Located all b.loc) ∧
        ∀ body ∈ branches.map (·.body) ++ otherwise.toList, IsBlock all body := by
  induction rounds with
  | nil => exact within_pure ⟨nofun, nofun⟩
  | cons _ rounds ih =>
    refine fun ls hls => .here (.acceptKeyword hls fun more hplace => ?_)
    split
    · rename_i hmore
      refine .after takes_expression fun condition => (hblock _).bind fun body hbody =>
        ih.bind fun (branches, otherwise, scope) ⟨hbranches, hblocks⟩ => ?_
      exact within_pure ⟨List.forall_mem_cons.2 ⟨hplace hmore, hbranches⟩,
        List.forall_mem_cons.2 ⟨hbody, hblocks⟩⟩
    · refine .after (takes_acceptKeyword _) fun last => ?_
      split
      · refine (hblock _).bind fun body hbody => within_pure ⟨nofun, fun b hb => ?_⟩
        obtain rfl := List.mem_singleton.1 hb
        exact hbody
      · exact within_pure ⟨nofun, nofun⟩

include hloc

theorem conditional_readFrom :
    Within all (conditional block loc) fun r => BlockReadFrom all [r.1] := by
  refine .after takes_expression fun condition => (hblock _).bind fun body hbody =>
    .after takes_remaining fun rounds => (moreBranches_readFrom hblock rounds).bind
      fun (branches, otherwise, scope) ⟨hbranches, hblocks⟩ => within_pure ?_
  exact blockReadFrom_compound hloc (List.forall_mem_cons.2 ⟨hloc, hbranches⟩)
    (List.forall_mem_cons.2 ⟨hbody, hblocks⟩)

theorem whileStatement_readFrom :
    Within all (whileStatement block loc) fun r => BlockReadFrom all [r.1] := by
  refine .after takes_expression fun condition => (hblock _).bind fun body hbody => within_pure ?_
  exact blockReadFrom_compound hloc nofun (List.forall_mem_singleton.2 hbody)

theorem forStatement_readFrom :
    Within all (forStatement block loc) fun r => BlockReadFrom all [r.1] := by
  refine .after takes_identifier fun var => .after (takes_expectIf rfl _) fun _ =>
    .after takes_expression fun iterable => (hblock _).bind fun body hbody => within_pure ?_
  exact blockReadFrom_compound hloc nofun (List.forall_mem_singleton.2 hbody)

theorem definition_readFrom :
    Within all (definition block loc) fun r => BlockReadFrom all [r.1] := by
  refine .after takes_identifier fun name => .after (takes_expect .leftParen _) fun _ =>
    .after takes_remaining fun rounds =>
      .after (parameters_runs.takes_rounds rounds []) fun params =>
        .after (takes_expect .rightParen _) fun _ =>
          (hblock _).bind fun body hbody => within_pure ?_
  exact blockReadFrom_compound hloc nofun (List.forall_mem_singleton.2 hbody)

end Compound

/-! ## Statements -/

theorem simpleLine_nonempty : Ensures (simpleLine context) (·.stmts ≠ []) := by
  refine .after fun first => .after fun rounds => .after fun rest => .after fun t => ?_
  have hline : Ensures (pure (Code.single first ++ rest) : Parse Code) (·.stmts ≠ []) :=
    ensures_pure (List.cons_ne_nil first.1 rest.stmts)
  split
  · exact .after fun _ => hline
  · exact hline

theorem YieldsOrBreaks.of_ensures {statement : Parse Code} (h : Ensures statement (·.stmts ≠ [])) :
    YieldsOrBreaks ls statement :=
  fun code rest hrun hnone => absurd hnone (h ls code rest hrun)

theorem YieldsOrBreaks.next {f : Lexeme → Parse Code} (h : YieldsOrBreaks ls (f (ahead ls))) :
    YieldsOrBreaks ls (next >>= f) := h

theorem statementWith_yields {block : Context → String → Parse Code} (ls : List Lexeme) :
    YieldsOrBreaks ls (statementWith block context) := by
  have hsingle (s : Stmt × Scope) : Ensures (pure (Code.single s) : Parse Code) (·.stmts ≠ []) :=
    ensures_pure (List.cons_ne_nil s.1 [])
  refine .next ?_
  dsimp only
  split
  -- The end of an empty line, which is taken alone.
  case h_3 h =>
    cases ls with
    | nil => cases h
    | cons l ls =>
      intro code rest hrun _
      rw [bind_of_ok (advance_run (by rw [← ahead_cons l ls, h]; rfl))] at hrun
      cases hrun
      exact ⟨l, rfl, h⟩
  case h_7 =>
    refine .of_ensures (.after fun _ => ?_)
    split
    · exact ensures_failAt_bind _ _
    · exact .after hsingle
  case h_10 => exact .of_ensures simpleLine_nonempty
  case h_4 | h_5 | h_6 => exact .of_ensures (.after fun _ => .after hsingle)
  all_goals exact .of_ensures (ensures_fail _)

/-- A parser `block` reads blocks from `all` in every context. -/
def BlocksRead (all : List Lexeme) (block : Context → String → Parse Code) : Prop :=
  ∀ c place, Within all (block c place) fun code => IsBlock all code.stmts

theorem statementWith_readFrom {block : Context → String → Parse Code}
    (hblock : BlocksRead all block) :
    Within all (statementWith block context) fun code => BlockReadFrom all code.stmts := by
  refine fun ls hls => .next ?_
  have hloc (h : (ahead ls).token.isLayout = false) := located_ahead hls h
  dsimp only
  split
  case h_3 => exact .advance hls (within_pure blockReadFrom_nil)
  case h_4 h =>
    rw [h] at hloc
    exact .advance hls
      ((conditional_readFrom (hblock _) (hloc rfl)).bind fun s hs => within_pure hs)
  case h_5 h =>
    rw [h] at hloc
    exact .advance hls ((whileStatement_readFrom (hblock _) (hloc rfl)).bind fun s hs =>
      within_pure hs)
  case h_6 h =>
    rw [h] at hloc
    exact .advance hls ((forStatement_readFrom (hblock _) (hloc rfl)).bind fun s hs =>
      within_pure hs)
  case h_7 h =>
    rw [h] at hloc
    refine .advance hls ?_
    split
    · exact within_failAt_bind _ _
    · exact (definition_readFrom (hblock _) (hloc rfl)).bind fun s hs => within_pure hs
  case h_10 =>
    exact fun code rest hrun => (simpleLine_readFrom ls hls code rest hrun).imp_right (·.1)
  all_goals exact within_fail _ ls hls

/-- Statements are read from `all`, by induction on `room`, which is left for blocks. -/
theorem statement_read (all : List Lexeme) (room : Nat) : StatementsRead all (statement room) := by
  induction room with
  | zero =>
    exact ⟨fun _ => statementWith_readFrom (block_readFrom nofun), fun _ => statementWith_yields⟩
  | succ room ih =>
    refine ⟨fun _ => statementWith_readFrom (block_readFrom fun statement h => ?_),
      fun _ => statementWith_yields⟩
    obtain rfl := Option.some.inj h
    exact ih

theorem statements_readFrom : Within all statements (BlockReadFrom all) := by
  refine .after takes_remaining fun rounds => ?_
  induction rounds with
  | nil => exact within_pure blockReadFrom_nil
  | cons _ rounds ih =>
    refine .after takes_peek fun t => ?_
    split
    · exact within_pure blockReadFrom_nil
    · exact ((statement_read all maxBlockDepth).readFrom _).bind fun s hs => ih.bind
        fun rest hrest => within_pure (hs.append hrest)

end Parse

/-- The statements of `p` are read from the lexemes `ls` of its text. -/
theorem Program.ofSource_readFrom {source : String} {p : Program} (h : ofSource source = .ok p) :
    ∃ ls, lexemes source.toList = .ok ls ∧
      ∀ around s, Stands p.body around s → s.ReadFrom ls := by
  obtain ⟨ls, rest, hlexemes, hbody, -⟩ := exists_of_ofSource h
  refine ⟨ls, hlexemes, fun around s hs => ?_⟩
  have hread := (Parse.statements_readFrom ls List.suffix_rfl p.body rest hbody).2
  exact (hs.everywhere (hread .outermost)).keeps

end Stepper
