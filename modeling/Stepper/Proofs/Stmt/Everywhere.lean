import Mathlib.Data.List.Nodup
import Stepper.Proofs.Parse.Ensures
import Stepper.Proofs.Stmt.Names

/-!
# What holds of all statements of a program

* `Stmt.blocks`: the blocks of a statement, and `Stands`: a statement stands in a program, inside
  others. `Context.within` is what surrounds it there.
* `Stmt.Everywhere`: a rule about statements and what surrounds them, kept by a statement and all
  statements in its blocks.
* `Parse.Keeps`: what the parsers of single statements must ensure for a rule to be kept. Of a
  function definition they can take for granted that it is scoped.
* `Parse.keeps_exprs`: what holds of the expressions of all statements.
* `Program.ofSource_everywhere`: then it is kept everywhere in a program of a source text.
-/

namespace Stepper

/-- The expressions of a target: `container` and `key` of a subscript. -/
def Target.exprs : Target → List Expr
  | name _ => []
  | item container key => [container, key]

namespace Stmt

/-- The blocks of a statement: its `arms`, or the body of the function that it defines. -/
def blocks : Stmt → List (List Stmt)
  | define f => [f.body]
  | s => s.arms

/-- The expressions of a statement outside its `blocks`. -/
def exprs : Stmt → List Expr
  | expr e _ => [e]
  | assign target value _ | augment target _ value _ => target.exprs ++ [value]
  | conditional branches _ _ => branches.map (·.condition)
  | whileLoop condition _ _ => [condition]
  | forLoop _ iterable _ _ => [iterable]
  | giveBack value _ => value.toList
  | _ => []

/-- Whether the statement is a `while` or a `for` loop. -/
def isLoop : Stmt → Bool
  | whileLoop _ _ _ | forLoop _ _ _ _ => true
  | _ => false

/-- Whether the statement defines a function. -/
def isDefinition : Stmt → Bool
  | define _ => true
  | _ => false

/-- Whether the statement is `break` or `continue`. -/
def leavesTurn : Stmt → Bool
  | breakLoop _ | continueLoop _ => true
  | _ => false

/-- Whether the statement is `return`. -/
def leavesCall : Stmt → Bool
  | giveBack _ _ => true
  | _ => false

end Stmt

/-- A statement `s` stands in `program`, inside the statements `around`, the innermost first. -/
inductive Stands (program : List Stmt) : List Stmt → Stmt → Prop
  | top {s : Stmt} : s ∈ program → Stands program [] s
  | inside {around : List Stmt} {outer s : Stmt} {block : List Stmt} :
      Stands program around outer → block ∈ outer.blocks → s ∈ block →
        Stands program (outer :: around) s

/-! ## Contexts -/

namespace Context

/-- What surrounds the statements of a whole program. -/
def outermost : Context := ⟨false, false⟩

/-- What surrounds the body of a function. -/
def ofBody : Context := ⟨false, true⟩

/-- What surrounds the blocks of a statement that stands in `c`. -/
def inside (c : Context) : Stmt → Context
  | .whileLoop _ _ _ | .forLoop _ _ _ _ => { c with inLoop := true }
  | .define _ => ofBody
  | _ => c

/-- What surrounds a statement inside the statements `around`, the innermost first. -/
def within (around : List Stmt) : Context :=
  around.foldr (fun s c => c.inside s) outermost

theorem inFunction_within (around : List Stmt) :
    (within around).inFunction = around.any (·.isDefinition) := by
  induction around with
  | nil => rfl
  | cons s around ih =>
    change ((within around).inside s).inFunction = _
    rw [List.any_cons, ← ih]
    cases s <;> rfl

/-- Only the loops of the same function count: those in `around` before the first definition. -/
theorem inLoop_within (around : List Stmt) :
    (within around).inLoop = (around.takeWhile (!·.isDefinition)).any (·.isLoop) := by
  induction around with
  | nil => rfl
  | cons s around ih =>
    change ((within around).inside s).inLoop = _
    by_cases h : s.isDefinition
    · cases s with
      | define f => rfl
      | _ => cases h
    · rw [List.takeWhile_cons_of_pos (by simpa using h), List.any_cons, ← ih]
      cases s with
      | define f => exact absurd rfl h
      | _ => rfl

end Context

/-! ## Rules -/

namespace Stmt

variable {rule : Context → Stmt → Prop} {c : Context}

/-- The statement `s` keeps `rule` in the context `c`, and so do all statements in its blocks. -/
inductive Everywhere (rule : Context → Stmt → Prop) : Context → Stmt → Prop
  | intro {c : Context} {s : Stmt} :
      rule c s → (∀ block ∈ s.blocks, ∀ t ∈ block, Everywhere rule (c.inside s) t) →
        Everywhere rule c s

theorem Everywhere.keeps {s : Stmt} : s.Everywhere rule c → rule c s
  | .intro h _ => h

theorem Everywhere.block {s : Stmt} {body : List Stmt} (hbody : body ∈ s.blocks) :
    s.Everywhere rule c → ∀ t ∈ body, t.Everywhere rule (c.inside s)
  | .intro _ h => h body hbody

theorem Everywhere.of_blocks_eq_nil {s : Stmt} (h : rule c s) (hblocks : s.blocks = []) :
    s.Everywhere rule c := by
  refine .intro h fun block hblock => ?_
  rw [hblocks] at hblock
  cases hblock

end Stmt

/-- All statements of `body`, and those in their blocks, keep `rule`. -/
def BlockEverywhere (rule : Context → Stmt → Prop) (c : Context) (body : List Stmt) : Prop :=
  ∀ s ∈ body, s.Everywhere rule c

section Everywhere

variable {rule : Context → Stmt → Prop} {c : Context} {s : Stmt} {body rest : List Stmt}

theorem blockEverywhere_nil : BlockEverywhere rule c [] :=
  nofun

theorem BlockEverywhere.append (hbody : BlockEverywhere rule c body)
    (hrest : BlockEverywhere rule c rest) : BlockEverywhere rule c (body ++ rest) :=
  fun s hs => (List.mem_append.1 hs).elim (hbody s) (hrest s)

theorem BlockEverywhere.cons (hs : s.Everywhere rule c) (hrest : BlockEverywhere rule c rest) :
    BlockEverywhere rule c (s :: rest) :=
  List.forall_mem_cons.2 ⟨hs, hrest⟩

theorem blockEverywhere_singleton (hs : s.Everywhere rule c) : BlockEverywhere rule c [s] :=
  .cons hs blockEverywhere_nil

/-- A `rule` that is kept everywhere in `program` is kept wherever a statement `s` stands. -/
theorem Stands.everywhere {program around : List Stmt} (h : Stands program around s)
    (hprogram : BlockEverywhere rule .outermost program) : s.Everywhere rule (.within around) := by
  induction h with
  | top hs => exact hprogram _ hs
  | inside _ hblock hs ih => exact ih.block hblock _ hs

/-- The `rule` is kept by the statements of `code`, and its names are theirs. -/
structure Code.Everywhere (rule : Context → Stmt → Prop) (c : Context) (code : Code) : Prop where
  stmts : BlockEverywhere rule c code.stmts
  scope : code.scope.Of code.stmts

theorem Code.everywhere_empty : Code.empty.Everywhere rule c :=
  ⟨blockEverywhere_nil, Scope.of_empty⟩

theorem Code.Everywhere.append {code more : Code} (h : code.Everywhere rule c)
    (hmore : more.Everywhere rule c) : (code ++ more).Everywhere rule c :=
  ⟨h.stmts.append hmore.stmts, h.scope.append hmore.scope⟩

/-- One statement `s`, with its own names and those of its blocks. -/
theorem Code.everywhere_single {scope : Scope} (hs : s.Everywhere rule c)
    (hscope : scope.OfBlocks s.arms) :
    (single (s, ⟨s.bound, s.declared⟩ ++ scope)).Everywhere rule c :=
  ⟨blockEverywhere_singleton hs, Scope.of_statement hscope⟩

end Everywhere

/-! ## The parser -/

namespace Parse

/-- The parsers of single statements keep `rule`, where expressions have the property `P`. -/
structure Keeps (P : Expr → Prop) (rule : Context → Stmt → Prop) : Prop where
  expression : Ensures expression P
  simple : ∀ c, Ensures (simpleStatement c) fun r => rule c r.1
  conditional : ∀ {c branches otherwise loc}, (∀ b ∈ branches, P b.condition) →
    rule c (.conditional branches otherwise loc)
  whileLoop : ∀ {c condition body loc}, P condition → rule c (.whileLoop condition body loc)
  forLoop : ∀ {c var iterable body loc}, P iterable → rule c (.forLoop var iterable body loc)
  define : ∀ {c f}, c.inFunction = false → f.Scoped → rule c (.define f)

/-- A statement without blocks, with its own names. -/
def IsSimple (r : Stmt × Scope) : Prop :=
  r.1.blocks = [] ∧ r.2 = ⟨r.1.bound, r.1.declared⟩

theorem expressionStatement_simple : Ensures expressionStatement IsSimple := by
  refine .after fun loc => .after fun e => .after fun assigns => ?_
  split
  · refine .after fun target => .after fun value => .after fun t => ?_
    split
    · exact .after fun _ => ensures_pure ⟨rfl, rfl⟩
    · exact ensures_pure ⟨rfl, rfl⟩
  · refine .after fun t => ?_
    split
    · exact .after fun _ => .after fun target => .after fun value => ensures_pure ⟨rfl, rfl⟩
    · exact ensures_pure ⟨rfl, rfl⟩

theorem simpleStatement_simple (c : Context) : Ensures (simpleStatement c) IsSimple := by
  refine .after fun found => ?_
  split
  · exact .after fun _ => ensures_pure ⟨rfl, rfl⟩
  · refine .after fun _ => ?_
    split
    · exact ensures_pure ⟨rfl, rfl⟩
    · exact ensures_failAt _ _
  · refine .after fun _ => ?_
    split
    · exact ensures_pure ⟨rfl, rfl⟩
    · exact ensures_failAt _ _
  · refine .after fun _ => ?_
    dsimp only
    split
    · exact ensures_failAt_bind _ _
    · refine .after fun t => ?_
      split
      · exact ensures_pure ⟨rfl, rfl⟩
      · exact .after fun e => ensures_pure ⟨rfl, rfl⟩
  · exact .after fun _ => .after fun name => .after fun rounds => .after fun names =>
      ensures_pure ⟨rfl, rfl⟩
  · exact expressionStatement_simple

/-- No parameter is read twice: `params` stays without repetition. -/
theorem parametersFrom_nodup (rounds : List Lexeme) {params : List String} (h : params.Nodup) :
    Ensures (parametersFrom rounds params) List.Nodup := by
  induction rounds generalizing params with
  | nil => exact ensures_pure h
  | cons _ rounds ih =>
    refine .after fun t => ?_
    split
    · exact ensures_pure h
    · refine .after fun loc => .after fun name => ?_
      dsimp only
      split
      · exact ensures_failAt_bind _ _
      · rename_i hnew
        have hmore : (params ++ [name]).Nodup := by
          rw [← List.concat_eq_append]
          exact h.concat fun hname => hnew (List.contains_iff_mem.2 hname)
        refine .after fun more => ?_
        split
        · exact ih hmore
        · exact ensures_pure hmore

variable {P : Expr → Prop} {rule : Context → Stmt → Prop} (h : Keeps P rule) {c : Context}
include h

theorem simpleStatement_everywhere :
    Ensures (simpleStatement c) fun r => (Code.single r).Everywhere rule c := by
  intro ls r rest hrun
  obtain ⟨hblocks, hscope⟩ := simpleStatement_simple c ls r rest hrun
  have harms : r.1.arms = [] := by
    cases hs : r.1 <;> rw [hs] at hblocks <;> first | exact hblocks | cases hblocks
  refine ⟨blockEverywhere_singleton (.of_blocks_eq_nil (h.simple c ls r rest hrun) hblocks), ?_⟩
  have hown := Scope.of_statement (harms ▸ Scope.ofBlocks_nil)
  rwa [Scope.append_empty, ← hscope] at hown

theorem moreSimple_everywhere (rounds : List Lexeme) :
    Ensures (moreSimple c rounds) (·.Everywhere rule c) := by
  induction rounds with
  | nil => exact ensures_pure Code.everywhere_empty
  | cons _ rounds ih =>
    refine .after fun more => ?_
    split
    · refine .after fun t => ?_
      split
      · exact ensures_pure Code.everywhere_empty
      · exact (simpleStatement_everywhere h).bind fun s hs => ih.bind fun rest hrest =>
          ensures_pure (hs.append hrest)
    · exact ensures_pure Code.everywhere_empty

theorem simpleLine_everywhere : Ensures (simpleLine c) (·.Everywhere rule c) := by
  refine (simpleStatement_everywhere h).bind fun first hfirst => .after fun rounds =>
    (moreSimple_everywhere h rounds).bind fun rest hrest => .after fun t => ?_
  have hline := ensures_pure (hfirst.append hrest)
  split
  · exact .after fun _ => hline
  · exact hline

omit h in
theorem untilEnd_everywhere {statement : Parse Code}
    (hstatement : Ensures statement (·.Everywhere rule c)) (rounds : List Lexeme) :
    Ensures (untilEnd statement rounds) (·.Everywhere rule c) := by
  induction rounds with
  | nil => exact ensures_pure Code.everywhere_empty
  | cons _ rounds ih =>
    refine .after fun t => ?_
    split
    · exact ensures_pure Code.everywhere_empty
    · exact hstatement.bind fun s hs => ih.bind fun rest hrest => ensures_pure (hs.append hrest)

omit h in
/-- A parser `block` of blocks keeps `rule` in every context. -/
def KeepsInBlocks (rule : Context → Stmt → Prop) (block : Context → String → Parse Code) :
    Prop :=
  ∀ c place, Ensures (block c place) (·.Everywhere rule c)

theorem block_everywhere {statement? : Option (Context → Parse Code)}
    (hstatement : ∀ statement ∈ statement?, ∀ c,
      Ensures (statement c) (·.Everywhere rule c)) : KeepsInBlocks rule (block statement?) := by
  intro c place
  refine .after fun _ => .after fun breaks => ?_
  split
  · exact simpleLine_everywhere h
  · refine .after fun indented => ?_
    dsimp only
    split
    · exact ensures_fail_bind _
    · cases statement? with
      | none => exact ensures_fail _
      | some statement =>
        exact .after fun rounds => (untilEnd_everywhere (hstatement statement rfl c) rounds).bind
          fun body hbody => .after fun _ => ensures_pure hbody

theorem moreBranches_everywhere {block : String → Parse Code}
    (hblock : ∀ place, Ensures (block place) (·.Everywhere rule c)) (rounds : List Lexeme) :
    Ensures (moreBranches block rounds) fun (branches, otherwise, scope) =>
      (∀ b ∈ branches, P b.condition ∧ BlockEverywhere rule c b.body) ∧
      (∀ body ∈ otherwise, BlockEverywhere rule c body) ∧
      scope.OfBlocks (branches.map (·.body) ++ otherwise.toList) := by
  induction rounds with
  | nil => exact ensures_pure ⟨nofun, nofun, Scope.ofBlocks_nil⟩
  | cons _ rounds ih =>
    refine .after fun loc => .after fun more => ?_
    split
    · refine h.expression.bind fun condition hcondition => (hblock _).bind fun body hbody =>
        ih.bind fun (branches, otherwise, scope) ⟨hbranches, hotherwise, hscope⟩ => ?_
      exact ensures_pure ⟨List.forall_mem_cons.2 ⟨⟨hcondition, hbody.stmts⟩, hbranches⟩,
        hotherwise, hbody.scope.cons hscope⟩
    · refine .after fun last => ?_
      split
      · refine (hblock _).bind fun body hbody => ensures_pure ⟨nofun, fun body' hbody' => ?_,
          hbody.scope.ofBlocks⟩
        obtain rfl := Option.some.inj hbody'
        exact hbody.stmts
      · exact ensures_pure ⟨nofun, nofun, Scope.ofBlocks_nil⟩

theorem conditional_everywhere {block : String → Parse Code}
    (hblock : ∀ place, Ensures (block place) (·.Everywhere rule c)) (loc : Location) :
    Ensures (conditional block loc) fun r => (Code.single r).Everywhere rule c := by
  refine h.expression.bind fun condition hcondition => (hblock _).bind fun body hbody =>
    .after fun rounds => (moreBranches_everywhere h hblock rounds).bind
      fun (branches, otherwise, scope) ⟨hmore, hotherwise, hscope⟩ => ensures_pure ?_
  have hbranches := List.forall_mem_cons (a := ⟨condition, body.stmts, loc⟩).2
    ⟨⟨hcondition, hbody.stmts⟩, hmore⟩
  refine Code.everywhere_single (.intro (h.conditional fun b hb => (hbranches b hb).1)
    fun block hblock => ?_) (hbody.scope.cons hscope)
  simp only [Stmt.blocks, Stmt.arms, List.mem_append, List.mem_map, Option.mem_toList] at hblock
  rcases hblock with ⟨b, hb, rfl⟩ | hblock
  · exact (hbranches b hb).2
  · exact hotherwise block hblock

theorem whileStatement_everywhere {block : Context → String → Parse Code}
    (hblock : KeepsInBlocks rule block) (loc : Location) :
    Ensures (whileStatement (block { c with inLoop := true }) loc) fun r =>
      (Code.single r).Everywhere rule c := by
  refine h.expression.bind fun condition hcondition => (hblock _ _).bind fun body hbody =>
    ensures_pure (Code.everywhere_single (.intro (h.whileLoop hcondition) fun block hblock => ?_)
      hbody.scope.ofBlocks)
  obtain rfl := List.mem_singleton.1 hblock
  exact hbody.stmts

theorem forStatement_everywhere {block : Context → String → Parse Code}
    (hblock : KeepsInBlocks rule block) (loc : Location) :
    Ensures (forStatement (block { c with inLoop := true }) loc) fun r =>
      (Code.single r).Everywhere rule c := by
  refine .after fun var => .after fun _ => h.expression.bind fun iterable hiterable =>
    (hblock _ _).bind fun body hbody => ensures_pure
      (Code.everywhere_single (.intro (h.forLoop hiterable) fun block hblock => ?_)
        hbody.scope.ofBlocks)
  obtain rfl := List.mem_singleton.1 hblock
  exact hbody.stmts

theorem definition_everywhere {block : Context → String → Parse Code}
    (hblock : KeepsInBlocks rule block) (hc : c.inFunction = false) (loc : Location) :
    Ensures (definition (block .ofBody) loc) fun r => (Code.single r).Everywhere rule c := by
  refine .after fun name => .after fun _ => .after fun rounds =>
    (parametersFrom_nodup rounds List.nodup_nil).bind fun params hparams => .after fun _ =>
      (hblock _ _).bind fun body hbody => ensures_pure ?_
  refine Code.everywhere_single (.intro (h.define hc ⟨hparams, fun name => ?_⟩)
    fun block hblock => ?_) Scope.ofBlocks_nil
  · exact hbody.scope.mem_locals
  · obtain rfl := List.mem_singleton.1 hblock
    exact hbody.stmts

theorem statementWith_everywhere {block : Context → String → Parse Code}
    (hblock : KeepsInBlocks rule block) :
    Ensures (statementWith block c) (·.Everywhere rule c) := by
  refine .after fun found => ?_
  split
  · exact ensures_fail _
  · exact ensures_fail _
  · exact .after fun _ => ensures_pure Code.everywhere_empty
  · exact .after fun _ => (conditional_everywhere h (hblock c) _).bind fun s hs => ensures_pure hs
  · exact .after fun _ => (whileStatement_everywhere h hblock _).bind fun s hs => ensures_pure hs
  · exact .after fun _ => (forStatement_everywhere h hblock _).bind fun s hs => ensures_pure hs
  · refine .after fun _ => ?_
    dsimp only
    split
    · exact ensures_failAt_bind _ _
    · rename_i hfunction
      exact (definition_everywhere h hblock (by simpa using hfunction) _).bind fun s hs =>
        ensures_pure hs
  · exact ensures_fail _
  · exact ensures_fail _
  · exact simpleLine_everywhere h

/-- The rule is kept, by induction on `room`, which is left for blocks inside one another. -/
theorem statement_everywhere (room : Nat) (c : Context) :
    Ensures (statement room c) (·.Everywhere rule c) := by
  induction room generalizing c with
  | zero => exact statementWith_everywhere h (block_everywhere h nofun)
  | succ room ih =>
    refine statementWith_everywhere h (block_everywhere h fun statement hstatement => ?_)
    obtain rfl := Option.some.inj hstatement
    exact ih

theorem statements_everywhere : Ensures statements (BlockEverywhere rule .outermost) := by
  refine .after fun rounds => ?_
  induction rounds with
  | nil => exact ensures_pure blockEverywhere_nil
  | cons _ rounds ih =>
    refine .after fun t => ?_
    split
    · exact ensures_pure blockEverywhere_nil
    · exact (statement_everywhere h maxBlockDepth _).bind fun s hs => ih.bind fun rest hrest =>
        ensures_pure (hs.stmts.append hrest)

/-! ## Expressions -/

section Expressions

omit h

variable {Q : Expr → Prop}

theorem asTarget_exprs {e : Expr} (he : Q e)
    (hindex : ∀ {container key loc}, Q (.index container key loc) → Q container ∧ Q key) :
    Ensures (asTarget e) fun target => ∀ part ∈ target.exprs, Q part := by
  unfold asTarget
  split
  · exact ensures_pure nofun
  · refine ensures_pure ?_
    simpa [Target.exprs] using hindex he
  · exact ensures_failAt _ _

/-- What the parser of expressions ensures, `Q`, holds of the expressions of all statements. -/
theorem keeps_exprs (hexpression : Ensures expression Q)
    (hindex : ∀ {container key loc}, Q (.index container key loc) → Q container ∧ Q key) :
    Keeps Q fun _ s => ∀ e ∈ s.exprs, Q e where
  expression := hexpression
  simple c := by
    have hassigned {target : Target} {value : Expr} (htarget : ∀ e ∈ target.exprs, Q e)
        (hvalue : Q value) : ∀ e ∈ target.exprs ++ [value], Q e := by
      intro e he
      rcases List.mem_append.1 he with he | he
      · exact htarget e he
      · obtain rfl := List.mem_singleton.1 he
        exact hvalue
    have hexpr : Ensures expressionStatement fun r => ∀ e ∈ r.1.exprs, Q e := by
      refine .after fun loc => hexpression.bind fun e he => .after fun assigns => ?_
      split
      · refine (asTarget_exprs he hindex).bind fun target htarget => hexpression.bind
          fun value hvalue => .after fun t => ?_
        split
        · exact .after fun _ => ensures_pure (hassigned htarget hvalue)
        · exact ensures_pure (hassigned htarget hvalue)
      · refine .after fun t => ?_
        split
        · exact .after fun _ => (asTarget_exprs he hindex).bind fun target htarget =>
            hexpression.bind fun value hvalue => ensures_pure (hassigned htarget hvalue)
        · exact ensures_pure (by simpa [Stmt.exprs] using he)
    refine .after fun found => ?_
    split
    · exact .after fun _ => ensures_pure nofun
    · refine .after fun _ => ?_
      split
      · exact ensures_pure nofun
      · exact ensures_failAt _ _
    · refine .after fun _ => ?_
      split
      · exact ensures_pure nofun
      · exact ensures_failAt _ _
    · refine .after fun _ => ?_
      dsimp only
      split
      · exact ensures_failAt_bind _ _
      · refine .after fun t => ?_
        split
        · exact ensures_pure nofun
        · exact hexpression.bind fun e he => ensures_pure (by simpa [Stmt.exprs] using he)
    · exact .after fun _ => .after fun name => .after fun rounds => .after fun names =>
        ensures_pure nofun
    · exact hexpr
  conditional hconditions := List.forall_mem_map.2 hconditions
  whileLoop hcondition := by simpa [Stmt.exprs] using hcondition
  forLoop hiterable := by simpa [Stmt.exprs] using hiterable
  define _ _ := nofun

end Expressions

end Parse

/-- What the parsers of single statements keep holds of all statements of a program `p`. -/
theorem Program.ofSource_everywhere {P : Expr → Prop} {rule : Context → Stmt → Prop}
    (h : Parse.Keeps P rule) {source : String} {p : Program} (hp : ofSource source = .ok p) :
    BlockEverywhere rule .outermost p.body :=
  ensures_ofSource (Parse.statements_everywhere h) hp

end Stepper
