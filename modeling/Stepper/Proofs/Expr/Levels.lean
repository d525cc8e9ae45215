import Stepper.Proofs.Parse.Reading

/-!
# The levels of the expression parser

An operand is read at the level of the precedence that its place asks for. If it binds tighter than
the level, the parser of the level passes it on to the next one; if it binds less tightly, it stands
in parentheses, which the innermost level takes.

* `Parse.atLevel`: the parser of a level.
* `Parse.tailAt`: what the parser of a level that groups to the left does after an operand.
* `Parse.ReadAt`: an expression is read at a level. `Parse.LeadAt`: it is read as the left side of
  a longer one, too.
* `Parse.Readable`: an expression is read at every level. It is enough that it is read at its own:
  `Parse.readable_of_readAt`.
-/

namespace Stepper

/-- How tightly an expression that begins with the token may bind; `0` if none begins with it. -/
def Token.lead : Token → Nat
  | int _ | float _ | str _ | name _ => 10
  | keyword .notWord => 3
  | keyword .trueWord | keyword .falseWord | keyword .noneWord => 10
  | symbol .plus | symbol .minus => 7
  | symbol .leftParen | symbol .leftBracket | symbol .leftBrace => 10
  | _ => 0

namespace Expr

variable {ls rest : List Lexeme}

/-! ## The first tokens of an expression -/

theorem spells_tokensAt_of_lt {level : Nat} {e : Expr} (h : e.precedence < level)
    (hls : Spells (e.tokensAt level) ls rest) :
    ∃ l after close, ls = l :: after ∧ l.token = .symbol .leftParen ∧
      Spells e.tokens after (close :: rest) ∧ close.token = .symbol .rightParen := by
  rw [tokensAt_of_lt h] at hls
  obtain ⟨l, after, rfl, hl, hls⟩ := hls
  obtain ⟨mid, htokens, close, mid', rfl, hclose, hrest⟩ := spells_append.1 hls
  obtain rfl : mid' = rest := hrest
  exact ⟨l, after, close, rfl, hl, htokens, hclose⟩

/-- An expression `e` begins with a token that binds at least as tightly as `level`. -/
theorem le_lead_of_spells : ∀ (e : Expr) {level : Nat} {ls rest : List Lexeme},
    level ≤ 10 → Spells (e.tokensAt level) ls rest → level ≤ (ahead ls).token.lead := by
  intro e level ls rest hlevel hls
  by_cases hprec : e.precedence < level
  · obtain ⟨l, after, close, rfl, hl, -, -⟩ := spells_tokensAt_of_lt hprec hls
    rwa [ahead_cons, hl]
  rw [tokensAt_of_le (Nat.not_lt.1 hprec)] at hls
  rw [Nat.not_lt] at hprec
  cases e with
  | int | float | str | none | name | list | dict =>
    obtain ⟨l, after, rfl, hl, -⟩ := hls
    rwa [ahead_cons, hl]
  | bool b =>
    obtain ⟨l, after, rfl, hl, -⟩ := hls
    rw [ahead_cons, hl]
    cases b <;> exact hlevel
  | unary op operand =>
    obtain ⟨l, after, rfl, hl, -⟩ := hls
    rw [ahead_cons, hl]
    cases op <;> exact hprec
  | arith op left right =>
    obtain ⟨mid, hleft, -⟩ := spells_append.1 hls
    have hop : op.precedence ≤ op.leftPrecedence ∧ op.leftPrecedence ≤ 10 := by cases op <;> decide
    exact Nat.le_trans hprec (Nat.le_trans hop.1 (le_lead_of_spells left hop.2 hleft))
  | logic op left right =>
    obtain ⟨mid, hleft, -⟩ := spells_append.1 hls
    have hop : op.precedence ≤ 10 := by cases op <;> decide
    exact Nat.le_trans hprec (le_lead_of_spells left hop hleft)
  | compare first links =>
    obtain ⟨mid, hfirst, -⟩ := spells_append.1 hls
    exact Nat.le_of_succ_le (Nat.le_trans (Nat.succ_le_succ hprec)
      (le_lead_of_spells first (Nat.le_of_ble_eq_true rfl) hfirst))
  | call e | index e | member e =>
    obtain ⟨mid, he, -⟩ := spells_append.1 hls
    exact Nat.le_trans hprec (le_lead_of_spells e (Nat.le_succ 9) he)

/-- The tokens that make an argument one by name come first: a name and `=`. -/
def BeginsNamed (ls : List Lexeme) : Prop :=
  ∃ x, (ahead ls).token = .name x ∧ ls[1]?.map (·.token) = some (.symbol .equal)

/-- No expression `e` looks like an argument by name. -/
theorem not_beginsNamed : ∀ (e : Expr) {level : Nat} {ls rest : List Lexeme},
    Spells (e.tokensAt level) ls rest → (ahead rest).token ≠ .symbol .equal →
      ¬ BeginsNamed ls := by
  intro e level ls rest hls hrest
  by_cases hprec : e.precedence < level
  · obtain ⟨l, after, close, rfl, hl, -, -⟩ := spells_tokensAt_of_lt hprec hls
    rintro ⟨x, hx, -⟩
    rw [ahead_cons, hl] at hx
    cases hx
  rw [tokensAt_of_le (Nat.not_lt.1 hprec)] at hls
  -- Only a name begins with a name and nothing before it; what follows is `rest` then, which does
  -- not begin with `=`. An expression with an operand in front begins as this does.
  cases e with
  | int | float | str | none | list | dict =>
    obtain ⟨l, after, rfl, hl, -⟩ := hls
    rintro ⟨x, hx, -⟩
    rw [ahead_cons, hl] at hx
    cases hx
  | name x =>
    obtain ⟨l, after, rfl, hl, rfl⟩ := hls
    rintro ⟨y, -, hy⟩
    cases after with
    | nil => cases hy
    | cons r after => exact hrest (Option.some.inj hy)
  | bool b =>
    obtain ⟨l, after, rfl, hl, -⟩ := hls
    rintro ⟨x, hx, -⟩
    rw [ahead_cons, hl] at hx
    cases hx
  | unary op operand =>
    obtain ⟨l, after, rfl, hl, -⟩ := hls
    rintro ⟨x, hx, -⟩
    rw [ahead_cons, hl] at hx
    cases op <;> cases hx
  | arith op left right =>
    obtain ⟨mid, hleft, l, after, rfl, hl, -⟩ := spells_append.1 hls
    refine not_beginsNamed left hleft ?_
    rw [ahead_cons, hl]
    cases op <;> simp [ArithOp.symbol]
  | logic op left right =>
    obtain ⟨mid, hleft, l, after, rfl, hl, -⟩ := spells_append.1 hls
    refine not_beginsNamed left hleft ?_
    rw [ahead_cons, hl]
    simp
  | compare first links =>
    obtain ⟨mid, hfirst, hlinks⟩ := spells_append.1 hls
    refine not_beginsNamed first hfirst ?_
    cases links with
    | nil =>
      obtain rfl : mid = rest := hlinks
      exact hrest
    | cons link links =>
      obtain ⟨op, e⟩ := link
      cases op <;> obtain ⟨l, after, rfl, hl, -⟩ := hlinks <;> simp [hl]
  | call e | index e | member e =>
    obtain ⟨mid, he, l, after, rfl, hl, -⟩ := spells_append.1 hls
    refine not_beginsNamed e he ?_
    rw [ahead_cons, hl]
    simp

theorem tokensAt_congr {low high : Nat} {e : Expr} (h : e.precedence < low ↔ e.precedence < high) :
    e.tokensAt low = e.tokensAt high := by
  by_cases hlow : e.precedence < low
  · rw [tokensAt_of_lt hlow, tokensAt_of_lt (h.1 hlow)]
  · rw [tokensAt_of_le (Nat.not_lt.1 hlow), tokensAt_of_le (Nat.not_lt.1 (hlow ∘ h.2))]

theorem nestingAt_congr {low high : Nat} {e : Expr} (h : e.precedence < low ↔ e.precedence < high) :
    e.nestingAt low = e.nestingAt high := by
  simp only [nestingAt, h]

end Expr

namespace Parse

variable {room level : Nat} {e : Expr} {ls mid rest : List Lexeme}

/-! ## Levels -/

/-- The parsers one level of nesting further in than those with `room`. -/
def beneath : Nat → Levels
  | 0 => beyond
  | room + 1 => levels room

theorem levels_eq (room : Nat) : levels room = levelsOver room (beneath room) := by
  cases room <;> rfl

/-- The parser of what binds at least like `level`. -/
def atLevel (room : Nat) : Nat → Parse Expr
  | 0 | 1 => disjunction room (beneath room)
  | 2 => conjunction room (beneath room)
  | 3 => negation room (beneath room)
  | 4 => comparison room (beneath room)
  | 5 => sum room (beneath room)
  | 6 => product room (beneath room)
  | 7 => signed room (beneath room)
  | 8 => power room (beneath room)
  | 9 => postfixed room (beneath room)
  | _ => primary (beneath room)

/-- The parser of what binds at least like `level` and stands one level of nesting further in. -/
def inner (level : Nat) : Nat → Parse Expr
  | 0 => tooDeep
  | room + 1 => atLevel room level

theorem beneath_disjunction : (beneath room).disjunction = inner 1 room := by
  cases room with
  | zero => rfl
  | succ room => rw [beneath, levels_eq]; rfl

theorem beneath_negation : (beneath room).negation = inner 3 room := by
  cases room with
  | zero => rfl
  | succ room => rw [beneath, levels_eq]; rfl

theorem beneath_signed : (beneath room).signed = inner 7 room := by
  cases room with
  | zero => rfl
  | succ room => rw [beneath, levels_eq]; rfl

/-- The levels whose operators group to the left. -/
def leftLevels : List Nat := [1, 2, 5, 6, 9]

/-- The operators that are joined at a level, and what is made of two sides. -/
def joinAt? : Nat → Token → Option (Expr → Expr → Location → Expr)
  | 1 => fun t => if t.isKeyword .orWord then some (.logic .or) else none
  | 2 => fun t => if t.isKeyword .andWord then some (.logic .and) else none
  | 5 => fun t => (additiveOp? t).map .arith
  | 6 => fun t => (multiplicativeOp? t).map .arith
  | _ => fun _ => none

/-- What the parser of a `level` that groups to the left does after the operand `e`, with room for
`links` operators. -/
def tailAt (room level links : Nat) (e : Expr) : Parse Expr :=
  if level = 9 then
    postfixes (beneath room) links e
  else
    chain (atLevel room (level + 1)) (joinAt? level) links e

theorem atLevel_of_left (h : level ∈ leftLevels) :
    atLevel room level = atLevel room (level + 1) >>= tailAt room level (room - 1) := by
  simp only [leftLevels, List.mem_cons, List.not_mem_nil, or_false] at h
  obtain rfl | rfl | rfl | rfl | rfl := h <;> rfl

theorem chain_of_none {operand : Parse Expr}
    {join? : Token → Option (Expr → Expr → Location → Expr)}
    (h : join? (ahead rest).token = none) (links : Nat) (e : Expr) :
    chain operand join? links e rest = .ok (e, rest) := by
  cases links with
  | zero => rw [chain, bind_of_ok next_run, h]; rfl
  | succ links => rw [chain, bind_of_ok next_run, h]; rfl

theorem chain_of_some {operand : Parse Expr}
    {join? : Token → Option (Expr → Expr → Location → Expr)}
    {join : Expr → Expr → Location → Expr} {l : Lexeme} (h : join? l.token = some join)
    (hend : l.token.isEndOfFile = false) (links : Nat) (e : Expr) :
    chain operand join? (links + 1) e (l :: rest) =
      (operand >>= fun right => chain operand join? links (join e right l.loc)) rest := by
  rw [chain, bind_of_ok next_run, ahead_cons, h]
  exact bind_of_ok (advance_run hend)

theorem chain_of_no_links {operand : Parse Expr}
    {join? : Token → Option (Expr → Expr → Location → Expr)}
    {join : Expr → Expr → Location → Expr} {l : Lexeme} (h : join? l.token = some join)
    (hend : l.token.isEndOfFile = false) (e : Expr) :
    ∃ loc, chain operand join? 0 e (l :: rest) = .error ⟨.nestingTooDeep, loc⟩ := by
  refine ⟨(ahead rest).loc, ?_⟩
  rw [chain, bind_of_ok next_run, ahead_cons, h]
  exact bind_of_ok (advance_run hend)

theorem grip_of_joinAt? {t : Token} {join : Expr → Expr → Location → Expr}
    (h : joinAt? level t = some join) : t.grip = level := by
  unfold joinAt? at h
  split at h <;> dsimp only at h
  case h_1 =>
    split at h
    · rename_i hor
      rw [Token.isKeyword_iff.1 hor]
      rfl
    · cases h
  case h_2 =>
    split at h
    · rename_i hand
      rw [Token.isKeyword_iff.1 hand]
      rfl
    · cases h
  case h_3 =>
    obtain ⟨op, hop, -⟩ := Option.map_eq_some_iff.1 h
    unfold additiveOp? at hop
    split at hop <;> first | rfl | cases hop
  case h_4 =>
    obtain ⟨op, hop, -⟩ := Option.map_eq_some_iff.1 h
    unfold multiplicativeOp? at hop
    split at hop <;> first | rfl | cases hop
  case h_5 => cases h

theorem grip_of_opensPostfix {t : Token} (h : opensPostfix t = true) : t.grip = 9 := by
  unfold opensPostfix at h
  split at h <;> first | rfl | cases h

theorem postfixed?_of_not_opens {deeper : Levels} (h : opensPostfix (ahead rest).token = false)
    (e : Expr) : postfixed? deeper e rest = .ok (none, rest) := by
  rw [postfixed?, bind_of_ok next_run]
  revert h
  cases (ahead rest).token with
  | symbol s => cases s <;> first | (intro _; rfl) | (intro h; cases h)
  | _ => intro _; rfl

theorem postfixes_of_not_opens {deeper : Levels} (h : opensPostfix (ahead rest).token = false)
    (links : Nat) (e : Expr) : postfixes deeper links e rest = .ok (e, rest) := by
  cases links with
  | zero =>
    rw [postfixes, bind_of_ok peek_run, h]
    rfl
  | succ links =>
    rw [postfixes, bind_of_ok (postfixed?_of_not_opens h e)]
    rfl

/-- At a token that ends the operand `e`, a `level` that groups to the left is done. -/
theorem tailAt_of_stops (h : Stops level rest) (links : Nat) (e : Expr) :
    tailAt room level links e rest = .ok (e, rest) := by
  unfold tailAt
  split
  · rename_i hlevel
    refine postfixes_of_not_opens ?_ links e
    cases hopens : opensPostfix (ahead rest).token with
    | false => rfl
    | true => exact absurd ((grip_of_opensPostfix hopens).trans hlevel.symm) (Nat.ne_of_lt h)
  · refine chain_of_none ?_ links e
    cases hjoin : joinAt? level (ahead rest).token with
    | none => rfl
    | some join => exact absurd (grip_of_joinAt? hjoin) (Nat.ne_of_lt h)

theorem sign?_of_lt_lead {t : Token} (h : 7 < t.lead) : sign? t = none := by
  unfold sign?
  split <;> first | rfl | exact absurd h (Nat.lt_irrefl 7)

theorem comparison?_of_stops (h : Stops 4 rest) : comparison? rest = .ok (none, rest) := by
  have hgrip : (ahead rest).token.grip ≠ 4 := Nat.ne_of_lt h
  rw [comparison?, bind_of_ok peek_run]
  generalize (ahead rest).token = t at hgrip ⊢
  cases t with
  | keyword k => cases k <;> first | rfl | exact absurd rfl hgrip
  | symbol s => cases s <;> first | rfl | exact absurd rfl hgrip
  | _ => rfl

theorem comparisons_of_stops (h : Stops 4 rest) (operand : Parse Expr) (rounds : List Lexeme) :
    comparisons operand rounds rest = .ok ([], rest) := by
  cases rounds with
  | nil => rfl
  | cons r rounds =>
    rw [comparisons, bind_of_ok (comparison?_of_stops h)]
    rfl

/-! ## Reading at a level -/

/-- The expression `e` is read at `level`, up to a token that ends it there, unless `room` is too
little. -/
def ReadAt (level : Nat) (e : Expr) : Prop :=
  ∀ (room : Nat) ⦃ls rest : List Lexeme⦄, Spells (e.tokensAt level) ls rest → Stops level rest →
    Reads (atLevel room level) ls rest (fun e' => e'.unplaced = e.unplaced)
      (room < e.nestingAt level)

/-- The expression `e` is read at `level` as the left side of what follows: the parser goes on after
it with room for `left.1` operators. -/
def LeadAt (level : Nat) (e : Expr) : Prop :=
  ∀ (room : Nat) ⦃ls rest : List Lexeme⦄, Spells (e.tokensAt level) ls rest →
    Stops (level + 1) rest →
      Reaches (atLevel room level) ls
        (fun left : Nat × Expr => tailAt room level left.1 left.2) rest
        (fun left => left.2.unplaced = e.unplaced ∧ room ≤ left.1 + e.nestingAt level)
        (room < e.nestingAt level)

/-- The expression `e` is read wherever it may stand. -/
structure Readable (e : Expr) : Prop where
  read : ∀ level, 1 ≤ level → level ≤ 10 → ReadAt level e
  lead : ∀ level ∈ leftLevels, LeadAt level e

theorem LeadAt.readAt (h : LeadAt level e) : ReadAt level e := fun room _ _ hls hstops =>
  (h room hls (hstops.mono (Nat.le_succ level))).trans fun left hleft =>
    .of_eq (tailAt_of_stops hstops left.1 left.2) hleft.1

theorem ReadAt.leadAt (h : ReadAt (level + 1) e) (hleft : level ∈ leftLevels)
    (hne : e.precedence ≠ level) : LeadAt level e := by
  intro room ls rest hls hstops
  have hiff : e.precedence < level ↔ e.precedence < level + 1 := by omega
  rw [Expr.tokensAt_congr hiff] at hls
  rw [Expr.nestingAt_congr hiff, atLevel_of_left hleft]
  refine (h room hls hstops).bind fun e' he' => .of_eq (a := (room - 1, e')) rfl ⟨he', ?_⟩
  have := e.nesting_pos
  simp only [Expr.nestingAt]
  omega

/-- What is read at `level + 1`, and begins and ends like that, is passed on to `level`. -/
theorem Reads.descend {Q : Expr → Prop} {deep : Prop}
    (hnext : Reads (atLevel room (level + 1)) ls rest Q deep) (hpos : 1 ≤ level)
    (hlevel : level < 10) (hlead : level < (ahead ls).token.lead) (hstops : Stops level rest) :
    Reads (atLevel room level) ls rest Q deep := by
  by_cases hleft : level ∈ leftLevels
  · rw [atLevel_of_left hleft]
    exact hnext.bind fun e he => .of_eq (tailAt_of_stops hstops (room - 1) e) he
  -- The other levels look for an operator of their own first, or after the operand, and find none.
  have hcases : level = 3 ∨ level = 4 ∨ level = 7 ∨ level = 8 := by
    simp only [leftLevels, List.mem_cons, List.not_mem_nil, or_false, not_or] at hleft
    omega
  obtain rfl | rfl | rfl | rfl := hcases
  · have hnot : (ahead ls).token.isKeyword .notWord = false := by
      cases hp : (ahead ls).token.isKeyword .notWord with
      | false => rfl
      | true =>
        rw [Token.isKeyword_iff.1 hp] at hlead
        exact absurd hlead (by decide)
    refine Reaches.of_run (bind_of_ok here_run) ?_
    exact Reaches.of_run (bind_of_ok (acceptIf_of_false hnot)) hnext
  · refine hnext.bind fun first hfirst => Reaches.of_run (bind_of_ok remaining_run) ?_
    exact Reaches.of_run (bind_of_ok (comparisons_of_stops hstops _ _)) (Reads.pure hfirst)
  · refine Reaches.of_run (bind_of_ok next_run) ?_
    rw [sign?_of_lt_lead hlead]
    exact hnext
  · have hnot : (ahead rest).token.isSymbol .starStar = false := by
      cases hp : (ahead rest).token.isSymbol .starStar with
      | false => rfl
      | true =>
        unfold Stops at hstops
        rw [Token.isSymbol_iff.1 hp] at hstops
        exact absurd hstops (by decide)
    refine hnext.bind fun base hbase => Reaches.of_run (bind_of_ok here_run) ?_
    exact Reaches.of_run (bind_of_ok (acceptIf_of_false hnot)) (Reads.pure hbase)

theorem Reads.descend_to {Q : Expr → Prop} {deep : Prop} {low high : Nat}
    (h : Reads (atLevel room high) ls rest Q deep) (hpos : 1 ≤ low) (hle : low ≤ high)
    (hhigh : high ≤ 10) (hlead : high ≤ (ahead ls).token.lead) (hstops : Stops low rest) :
    Reads (atLevel room low) ls rest Q deep := by
  obtain ⟨d, rfl⟩ := Nat.exists_eq_add_of_le hle
  induction d with
  | zero => exact h
  | succ d ih =>
    have hstep : Reads (atLevel room (low + d)) ls rest Q deep :=
      Reads.descend h (by omega) (by omega) (by omega) (hstops.mono (Nat.le_add_right low d))
    exact ih hstep (by omega) (by omega) (by omega)

/-- What binds tighter than the operators of the levels from `low` on is passed on from `high` to
`low`. -/
theorem ReadAt.descend_to {low high : Nat} (h : ReadAt high e) (hpos : 1 ≤ low) (hle : low ≤ high)
    (hhigh : high ≤ 10) (hne : ∀ level, low ≤ level → level < high → e.precedence ≠ level) :
    ReadAt low e := by
  intro room ls rest hls hstops
  have hiff : e.precedence < low ↔ e.precedence < high := by
    refine ⟨fun h => Nat.lt_of_lt_of_le h hle, fun h => Nat.lt_of_not_le fun hlow => ?_⟩
    exact hne e.precedence hlow h rfl
  rw [Expr.tokensAt_congr hiff] at hls
  rw [Expr.nestingAt_congr hiff]
  exact (h room hls (hstops.mono hle)).descend_to hpos hle hhigh
    (e.le_lead_of_spells hhigh hls) hstops

/-- One level further in there is room for one level less. -/
theorem ReadAt.inner (h : ReadAt level e) (hls : Spells (e.tokensAt level) ls rest)
    (hstops : Stops level rest) :
    Reads (inner level room) ls rest (fun e' => e'.unplaced = e.unplaced)
      (room < e.nestingAt level + 1) := by
  cases room with
  | zero => exact .of_tooDeep (tooDeep_run _ _) (Nat.succ_pos _)
  | succ room =>
    exact Reaches.mono (h room hls hstops) (fun _ he' => he') Nat.succ_lt_succ

/-- Parentheses make a primary of the expression `e`, which is read at level `10` then. -/
theorem ReadAt.enclosed (h : ReadAt 1 e) (hprec : e.precedence < 10) : ReadAt 10 e := by
  intro room ls rest hls hstops
  obtain ⟨l, after, close, rfl, hl, hafter, hclose⟩ := Expr.spells_tokensAt_of_lt hprec hls
  rw [← e.tokensAt_one] at hafter
  have hdeep : e.nestingAt 10 = e.nestingAt 1 + 1 := by
    rw [e.nestingAt_one, Expr.nestingAt, if_pos hprec]
  have hend : Stops 1 (close :: rest) := by
    rw [Stops, ahead_cons, hclose]
    exact Nat.one_pos
  change Reads (primary (beneath room)) _ _ _ _
  refine Reaches.of_run (bind_of_ok next_run) ?_
  rw [ahead_cons, hl, hdeep]
  refine Reaches.of_run (bind_of_ok (advance_run (by rw [hl]; rfl))) ?_
  rw [beneath_disjunction]
  refine (h.inner hafter hend).bind fun e' he' => ?_
  exact Reaches.of_run (bind_of_ok (expect_of_symbol hclose _)) (Reads.pure he')

/-- An expression `e` that is read at its own level is read everywhere: further out, it is passed
on, and further in it stands in parentheses. -/
theorem readable_of_readAt (h : ReadAt e.precedence e)
    (hlead : e.precedence ∈ leftLevels → LeadAt e.precedence e) : Readable e := by
  have hone := e.one_le_precedence
  have hten := e.precedence_le
  have hout {level : Nat} (hpos : 1 ≤ level) (hle : level ≤ e.precedence) : ReadAt level e :=
    h.descend_to hpos hle hten fun _ _ hlt => Nat.ne_of_gt hlt
  have hread : ∀ level, 1 ≤ level → level ≤ 10 → ReadAt level e := by
    intro level hpos hlevel
    -- Further in than its own level the expression is in parentheses, which make it a primary.
    by_cases hle : level ≤ e.precedence
    · exact hout hpos hle
    · exact ((hout (Nat.le_refl 1) hone).enclosed (by omega)).descend_to hpos hlevel
        (Nat.le_refl 10) fun _ hlow _ => by omega
  refine ⟨hread, fun level hleft => ?_⟩
  by_cases hprec : e.precedence = level
  · subst hprec
    exact hlead hleft
  · have hlevel : level < 10 := by
      simp only [leftLevels, List.mem_cons, List.not_mem_nil, or_false] at hleft
      omega
    exact (hread (level + 1) (Nat.succ_pos level) hlevel).leadAt hleft hprec

theorem readable_of_leadAt (h : LeadAt e.precedence e) : Readable e :=
  readable_of_readAt h.readAt fun _ => h

end Parse

end Stepper
