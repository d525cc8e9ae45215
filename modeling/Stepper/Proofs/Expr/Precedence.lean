import Stepper.Proofs.Expr.Levels

/-!
# Expressions are read back from their tokens

Every expression that can be written is read at the level of its outermost operator, if its parts
are read wherever they stand: one lemma for each form of expressions. So it is read everywhere.

* `Parse.LeadAt.chain`, `Parse.LeadAt.postfixed`: the operators that group to the left.
* `Parse.argumentsAfter_reads`: the arguments of a call.
* `Parse.readable`: every expression that can be written is read.
* `Parse.expression_tokens`: the parser of expressions undoes `Expr.tokens`.
-/

namespace Stepper

namespace Parse

variable {room level : Nat} {e : Expr} {ls mid rest : List Lexeme}

attribute [local simp] Expr.unplaced

/-! ## Operators that group to the left -/

/-- A chain `e` is read as the left side of what follows if `left` is, and `right` is read at
`level + 1`. -/
theorem LeadAt.chain {left right : Expr} {t : Token} {join : Expr → Expr → Location → Expr}
    (hleft : LeadAt level left) (hright : ReadAt (level + 1) right) (hlevel : level ≠ 9)
    (hparts : (level, left) ∈ e.operands ∧ (level + 1, right) ∈ e.operands)
    (hjoin : joinAt? level t = some join) (hend : t.isEndOfFile = false)
    (hprec : e.precedence = level)
    (htokens : e.tokens = left.tokensAt level ++ t :: right.tokensAt (level + 1))
    (hsame : ∀ l r loc, l.unplaced = left.unplaced → r.unplaced = right.unplaced →
      (join l r loc).unplaced = e.unplaced) : LeadAt level e := by
  intro room ls rest hls hstops
  rw [Expr.tokensAt_of_le (Nat.le_of_eq hprec.symm), htokens] at hls
  rw [Expr.nestingAt_of_le (Nat.le_of_eq hprec.symm)]
  obtain ⟨mid, hl, op, after, rfl, rfl, hr⟩ := spells_append.1 hls
  have hnestl : left.nestingAt level < e.nesting := Expr.nestingAt_operand hparts.1
  have hnestr : right.nestingAt (level + 1) < e.nesting := Expr.nestingAt_operand hparts.2
  have hmid : Stops (level + 1) (op :: after) := by
    rw [Stops, ahead_cons, grip_of_joinAt? hjoin]
    exact Nat.lt_succ_self level
  refine ((hleft room hl hmid).mono (fun _ h => h) fun h => Nat.lt_trans h hnestl).trans ?_
  rintro ⟨links, l⟩ ⟨hsamel, hroom⟩
  simp only [tailAt, if_neg hlevel]
  cases links with
  -- no links are left: the left side has used them up, so it is nested as deep as the limit
  | zero =>
    have herr : ∃ loc, Parse.chain (atLevel room (level + 1)) (joinAt? level) 0 l (op :: after) =
        .error ⟨.nestingTooDeep, loc⟩ := chain_of_no_links hjoin hend l
    obtain ⟨loc, herr⟩ := herr
    exact .of_tooDeep herr (by omega)
  | succ links =>
    refine Reaches.of_run (chain_of_some hjoin hend links l) ?_
    refine Reads.bind (Reaches.mono (hright room hr hstops) (fun _ h => h)
      fun h => Nat.lt_trans h hnestr) fun r hsamer => ?_
    exact .of_eq (a := (links, join l r op.loc)) rfl ⟨hsame l r op.loc hsamel hsamer, by omega⟩

/-- A call, subscript or attribute `e` is read as the left side of what follows if `before` is, and
if the tokens `t :: ts` after that are taken. -/
theorem LeadAt.postfixed {before : Expr} {t : Token} {ts : List Token} (hbefore : LeadAt 9 before)
    (hpart : (9, before) ∈ e.operands) (hprec : e.precedence = 9) (hopens : opensPostfix t = true)
    (htokens : e.tokens = before.tokensAt 9 ++ t :: ts)
    (htake : ∀ b room, b.unplaced = before.unplaced → ∀ {l : Lexeme} {after rest : List Lexeme},
      l.token = t → Spells ts after rest →
        Reads (postfixed? (beneath room) b) (l :: after) rest
          (fun found => ∃ e', found = some e' ∧ e'.unplaced = e.unplaced) (room < e.nesting)) :
    LeadAt 9 e := by
  intro room ls rest hls hstops
  rw [Expr.tokensAt_of_le (Nat.le_of_eq hprec.symm), htokens] at hls
  rw [Expr.nestingAt_of_le (Nat.le_of_eq hprec.symm)]
  obtain ⟨mid, hb, l, after, rfl, rfl, hafter⟩ := spells_append.1 hls
  have hnest : before.nestingAt 9 < e.nesting := Expr.nestingAt_operand hpart
  have hmid : Stops 10 (l :: after) := by
    rw [Stops, ahead_cons, grip_of_opensPostfix hopens]
    exact Nat.lt_succ_self 9
  refine ((hbefore room hb hmid).mono (fun _ h => h) fun h => Nat.lt_trans h hnest).trans ?_
  rintro ⟨links, b⟩ ⟨hsame, hroom⟩
  simp only [tailAt, if_pos]
  -- Without room for another link the parser fails, and then `e` is nested too deep for `room`.
  cases links with
  | zero =>
    have herr : postfixes (beneath room) 0 b (l :: after) = .error ⟨.nestingTooDeep, l.loc⟩ := by
      rw [postfixes, bind_of_ok peek_run, ahead_cons, if_pos hopens]
      rfl
    exact .of_tooDeep herr (by omega)
  | succ links =>
    refine Reads.bind (htake b room hsame rfl hafter) ?_
    rintro _ ⟨e', rfl, he'⟩
    exact .of_eq (a := (links, e')) rfl ⟨he', by omega⟩

/-! ## Literals, names and displays -/

theorem adjacentTexts_of_stops (h : Stops 10 rest) (rounds : List Lexeme) :
    adjacentTexts rounds rest = .ok ("", rest) := by
  cases rounds with
  | nil => rfl
  | cons r rounds =>
    have hgrip : (ahead rest).token.grip ≠ 10 := Nat.ne_of_lt h
    rw [adjacentTexts, bind_of_ok peek_run]
    generalize (ahead rest).token = t at hgrip ⊢
    cases t with
    | str s => exact absurd rfl hgrip
    | _ => rfl

theorem ReadAt.of_token {t : Token} (hprec : e.precedence = 10) (htokens : e.tokens = [t])
    (htake : ∀ deeper {l : Lexeme} {after : List Lexeme}, l.token = t → Stops 10 after →
      ∃ e', primary deeper (l :: after) = .ok (e', after) ∧ e'.unplaced = e.unplaced) :
    ReadAt 10 e := by
  intro room ls rest hls hstops
  rw [Expr.tokensAt_of_le (Nat.le_of_eq hprec.symm), htokens] at hls
  obtain ⟨l, after, rfl, hl, rfl⟩ := hls
  obtain ⟨e', hrun, hsame⟩ := htake (beneath room) hl hstops
  exact .of_run hrun hsame

/-- An expression `e` of a `level` whose operators do not group to the left. -/
theorem readable_of_level (h : ReadAt level e) (hprec : e.precedence = level)
    (hlevel : level ∉ leftLevels) : Readable e := by
  subst hprec
  exact readable_of_readAt h fun hleft => absurd hleft hlevel

theorem readable_primary (hprec : e.precedence = 10) (h : ReadAt 10 e) : Readable e :=
  readable_of_level h hprec (by decide)

/-- An expression `e` of the one token `t`, which no other token joins. -/
theorem readable_leaf {t : Token} (make : Location → Expr) (hprec : e.precedence = 10)
    (htokens : e.tokens = [t])
    (htake : ∀ deeper loc text after,
      primary deeper (⟨t, loc, text⟩ :: after) = .ok (make loc, after))
    (hsame : ∀ loc, (make loc).unplaced = e.unplaced) : Readable e := by
  refine readable_primary hprec (.of_token hprec htokens fun deeper l after hl _ => ?_)
  obtain ⟨_, loc, text⟩ := l
  obtain rfl := hl
  exact ⟨make loc, htake deeper loc text after, hsame loc⟩

theorem isSymbol_of_lead {t : Token} {close : Symbol} (ht : 1 ≤ t.lead)
    (hclose : (Token.symbol close).lead = 0) : t.isSymbol close = false := by
  cases h : t.isSymbol close with
  | false => rfl
  | true =>
    rw [Token.isSymbol_iff.1 h, hclose] at ht
    cases ht

/-- A `part` that stands one level of nesting further in. -/
theorem Readable.inner {part : Expr} (h : Readable part) (hpart : (level, part) ∈ e.operands)
    (hpos : 1 ≤ level) (hlevel : level ≤ 10) (hls : Spells (part.tokensAt level) ls rest)
    (hstops : Stops level rest) :
    Reads (inner level room) ls rest (fun e' => e'.unplaced = part.unplaced)
      (room < e.nesting) := by
  have hnest : part.nestingAt level < e.nesting := Expr.nestingAt_operand hpart
  refine Reaches.mono ((h.read level hpos hlevel).inner hls hstops) (fun _ h => h) fun hroom => ?_
  exact Nat.lt_of_lt_of_le hroom hnest

/-- A `part` that stands in brackets, where any expression may stand. -/
theorem Readable.bracketed {part : Expr} (h : Readable part) (hpart : (1, part) ∈ e.operands)
    (hls : Spells part.tokens ls rest) (hstops : Stops 1 rest) :
    Reads (beneath room).disjunction ls rest (fun e' => e'.unplaced = part.unplaced)
      (room < e.nesting) := by
  rw [beneath_disjunction]
  rw [← part.tokensAt_one] at hls
  exact h.inner hpart (Nat.le_refl 1) (Nat.le_of_ble_eq_true rfl) hls hstops

theorem one_le_lead (hls : Spells e.tokens ls rest) : 1 ≤ (ahead ls).token.lead := by
  rw [← e.tokensAt_one] at hls
  exact e.le_lead_of_spells (Nat.le_of_ble_eq_true rfl) hls

theorem readAt_list {items : List Expr} {loc : Location}
    (h : ∀ part ∈ (Expr.list items loc).operands, Readable part.2) :
    ReadAt 10 (.list items loc) := by
  intro room ls rest hls hstops
  have hpart {a : Expr} (ha : a ∈ items) : (1, a) ∈ (Expr.list items loc).operands :=
    List.mem_map.2 ⟨a, ha, rfl⟩
  obtain ⟨l, after, rfl, hl, hafter⟩ := hls
  obtain ⟨mid, hitems, close, mid', rfl, hclose, hrest⟩ := spells_append.1 hafter
  obtain rfl : mid' = rest := hrest
  rw [Expr.itemTokens_eq_map] at hitems
  have hread : Reads (itemsUpTo .rightBracket (beneath room).disjunction after) after
      (close :: mid')
      (fun values => values.map Expr.unplaced = items.map Expr.unplaced)
      (room < (Expr.list items loc).nesting) :=
    itemsUpTo_reads (by decide) rfl
      (fun a ha _ _ hls hstops => (h _ (hpart ha)).bracketed (hpart ha) hls hstops)
      (fun a ha _ _ hls => isSymbol_of_lead (one_le_lead hls) rfl) hitems hclose (Nat.le_refl _)
  change Reads (primary (beneath room)) _ _ _ _
  refine Reaches.of_run (bind_of_ok next_run) ?_
  rw [ahead_cons, hl]
  refine Reaches.of_run (bind_of_ok (advance_run (by rw [hl]; rfl))) ?_
  refine Reads.bind (Reaches.of_run (bind_of_ok remaining_run) hread) fun values hvalues => ?_
  refine Reaches.of_run (bind_of_ok (expect_of_symbol hclose _)) (Reads.pure ?_)
  simp [Expr.unplacedItems_eq_map, hvalues]

theorem readAt_dict {entries : List (Expr × Expr)} {loc : Location}
    (h : ∀ part ∈ (Expr.dict entries loc).operands, Readable part.2) :
    ReadAt 10 (.dict entries loc) := by
  intro room ls rest hls hstops
  have hkey {a : Expr × Expr} (ha : a ∈ entries) : (1, a.1) ∈ (Expr.dict entries loc).operands :=
    List.mem_append_left _ (List.mem_map.2 ⟨a, ha, rfl⟩)
  have hvalue {a : Expr × Expr} (ha : a ∈ entries) : (1, a.2) ∈ (Expr.dict entries loc).operands :=
    List.mem_append_right _ (List.mem_map.2 ⟨a, ha, rfl⟩)
  obtain ⟨l, after, rfl, hl, hafter⟩ := hls
  obtain ⟨mid, hentries, close, mid', rfl, hclose, hrest⟩ := spells_append.1 hafter
  obtain rfl : mid' = rest := hrest
  rw [Expr.entryTokens_eq_map] at hentries
  have hread : Reads (itemsUpTo .rightBrace (entry (beneath room).disjunction) after) after
      (close :: mid')
      (fun found => found.map (fun entry => (entry.1.unplaced, entry.2.unplaced)) =
        entries.map fun entry => (entry.1.unplaced, entry.2.unplaced))
      (room < (Expr.dict entries loc).nesting) := by
    refine itemsUpTo_reads (by decide) rfl ?_ ?_ hentries hclose (Nat.le_refl _)
    · intro a ha ls rest hls hstops
      obtain ⟨mid, hk, colon, more, rfl, hcolon, hv⟩ := spells_append.1 hls
      refine ((h _ (hkey ha)).bracketed (hkey ha) hk (stops_of_symbol hcolon rfl)).bind ?_
      intro k hsamek
      refine Reaches.of_run (bind_of_ok (expect_of_symbol hcolon _)) ?_
      refine ((h _ (hvalue ha)).bracketed (hvalue ha) hv hstops).bind fun v hsamev => ?_
      exact Reads.pure (by rw [hsamek, hsamev])
    · intro a ha ls rest hls
      obtain ⟨mid, hk, -⟩ := spells_append.1 hls
      exact isSymbol_of_lead (one_le_lead hk) rfl
  change Reads (primary (beneath room)) _ _ _ _
  refine Reaches.of_run (bind_of_ok next_run) ?_
  rw [ahead_cons, hl]
  refine Reaches.of_run (bind_of_ok (advance_run (by rw [hl]; rfl))) ?_
  refine Reads.bind (Reaches.of_run (bind_of_ok remaining_run) hread) fun values hvalues => ?_
  refine Reaches.of_run (bind_of_ok (expect_of_symbol hclose _)) (Reads.pure ?_)
  simp [Expr.unplacedEntries_eq_map, hvalues]

/-! ## Signs, `not`, powers and comparisons -/

theorem readAt_sign {op : UnaryOp} {operand : Expr} {loc : Location} (hop : op ≠ .not)
    (h : Readable operand) : ReadAt 7 (.unary op operand loc) := by
  intro room ls rest hls hstops
  have hprec : op.precedence = 7 := by cases op <;> first | rfl | exact absurd rfl hop
  have hpart : (7, operand) ∈ (Expr.unary op operand loc).operands := by
    simp [Expr.operands, hprec]
  have hsign : sign? op.token = some op := by cases op <;> first | rfl | exact absurd rfl hop
  have hend : op.token.isEndOfFile = false := by cases op <;> rfl
  rw [Expr.tokensAt_of_le (Nat.le_of_eq hprec.symm)] at hls
  rw [Expr.nestingAt_of_le (Nat.le_of_eq hprec.symm)]
  obtain ⟨l, after, rfl, hl, hafter⟩ := hls
  rw [hprec] at hafter
  change Reads (signed room (beneath room)) _ _ _ _
  refine Reaches.of_run (bind_of_ok next_run) ?_
  rw [ahead_cons, hl, hsign, beneath_signed]
  refine Reaches.of_run (bind_of_ok (advance_run (by rw [hl, hend]))) ?_
  refine (h.inner hpart (by decide) (by decide) hafter hstops).bind fun e' he' => ?_
  exact Reads.pure (by simp [he'])

theorem readAt_not {operand : Expr} {loc : Location} (h : Readable operand) :
    ReadAt 3 (.unary .not operand loc) := by
  intro room ls rest hls hstops
  have hpart : (3, operand) ∈ (Expr.unary .not operand loc).operands := List.mem_singleton.2 rfl
  obtain ⟨l, after, rfl, hl, hafter⟩ := hls
  change Reads (negation room (beneath room)) _ _ _ _
  refine Reaches.of_run (bind_of_ok here_run) ?_
  refine Reaches.of_run (bind_of_ok (acceptKeyword_of_keyword hl)) ?_
  rw [if_pos rfl, beneath_negation]
  refine (h.inner hpart (by decide) (by decide) hafter hstops).bind fun e' he' => ?_
  exact Reads.pure (by simp [he'])

/-- No operator between two operands binds like a sign, at level `7`. -/
theorem stops_seven (h : Stops 8 rest) : Stops 7 rest := by
  have hgrip : (ahead rest).token.grip ≠ 7 := by
    cases (ahead rest).token with
    | keyword k => cases k <;> decide
    | symbol s => cases s <;> decide
    | _ => simp [Token.grip]
  unfold Stops at h ⊢
  omega

theorem readAt_pow {left right : Expr} {loc : Location} (hleft : Readable left)
    (hright : Readable right) : ReadAt 8 (.arith .pow left right loc) := by
  intro room ls rest hls hstops
  have hpartl : (9, left) ∈ (Expr.arith .pow left right loc).operands := List.mem_cons_self
  have hpartr : (7, right) ∈ (Expr.arith .pow left right loc).operands :=
    List.mem_cons_of_mem _ (List.mem_singleton.2 rfl)
  have hnest : left.nestingAt 9 < _ := Expr.nestingAt_operand hpartl
  obtain ⟨mid, hl, op, after, rfl, hop, hr⟩ := spells_append.1 hls
  have hmid : Stops 9 (op :: after) := by
    rw [Stops, ahead_cons, hop]
    exact Nat.lt_succ_self 8
  have hbase := Reaches.mono (hleft.read 9 (by decide) (by decide) room hl hmid) (fun _ h => h)
    fun h => Nat.lt_trans h hnest
  change Reads (power room (beneath room)) _ _ _ _
  refine Reads.bind hbase fun base hsame => ?_
  refine Reaches.of_run (bind_of_ok here_run) ?_
  refine Reaches.of_run (bind_of_ok (accept_of_symbol hop)) ?_
  rw [if_pos rfl, beneath_signed]
  refine (hright.inner hpartr (by decide) (by decide) hr (stops_seven hstops)).bind ?_
  intro exponent hexponent
  exact Reads.pure (by simp [hsame, hexponent])

theorem comparison?_of_spells {op : CompareOp} (hls : Spells op.tokens ls rest)
    (hrest : (ahead rest).token ≠ .keyword .notWord) : comparison? ls = .ok (some op, rest) := by
  cases op with
  | eq | ne | lt | le | gt | ge | isIn =>
    obtain ⟨l, after, rfl, hl, rfl⟩ := hls
    rw [comparison?, bind_of_ok peek_run, ahead_cons, hl]
    exact bind_of_ok (advance_run (by rw [hl]; rfl))
  | notIn =>
    obtain ⟨l, after, rfl, hl, l', after', rfl, hl', rfl⟩ := hls
    rw [comparison?, bind_of_ok peek_run, ahead_cons, hl]
    refine (bind_of_ok peekSecond_run).trans ?_
    simp only [List.getElem?_cons_succ, List.getElem?_cons_zero, Option.map_some, hl']
    exact (bind_of_ok (advance_run (by rw [hl]; rfl))).trans
      (bind_of_ok (advance_run (by rw [hl']; rfl)))
  | same =>
    obtain ⟨l, after, rfl, hl, rfl⟩ := hls
    have hnot : (ahead after).token.isKeyword .notWord = false := by
      rw [Bool.eq_false_iff]
      exact mt Token.isKeyword_iff.1 hrest
    rw [comparison?, bind_of_ok peek_run, ahead_cons, hl]
    exact (bind_of_ok (advance_run (by rw [hl]; rfl))).trans (bind_of_ok (acceptIf_of_false hnot))
  | notSame =>
    obtain ⟨l, after, rfl, hl, l', after', rfl, hl', rfl⟩ := hls
    rw [comparison?, bind_of_ok peek_run, ahead_cons, hl]
    exact (bind_of_ok (advance_run (by rw [hl]; rfl))).trans
      (bind_of_ok (acceptKeyword_of_keyword hl'))

/-- The links of a comparison end the operand before them, as what follows the comparison does. -/
theorem stops_of_links {links : List (CompareOp × Expr)}
    (hls : Spells (Expr.linkTokens links) ls rest) (hstops : Stops 4 rest) : Stops 5 ls := by
  cases links with
  | nil =>
    obtain rfl : ls = rest := hls
    exact hstops.mono (Nat.le_succ 4)
  | cons link links =>
    obtain ⟨op, e⟩ := link
    cases op <;> obtain ⟨l, after, rfl, hl, -⟩ := hls <;>
      · rw [Stops, ahead_cons, hl]
        exact Nat.lt_succ_self 4

/-- The `links` of a comparison are read if each operand is. -/
theorem comparisons_reads {operand : Parse Expr} {deep : Prop} {links : List (CompareOp × Expr)}
    {rounds : List Lexeme}
    (hoperand : ∀ link ∈ links, ∀ {ls rest}, Spells (link.2.tokensAt 5) ls rest → Stops 5 rest →
      Reads operand ls rest (fun e' => e'.unplaced = link.2.unplaced) deep)
    (hls : Spells (Expr.linkTokens links) ls rest) (hstops : Stops 4 rest)
    (hrounds : ls.length ≤ rounds.length) :
    Reads (comparisons operand rounds) ls rest
      (fun found => Expr.unplacedLinks found = Expr.unplacedLinks links) deep := by
  induction links generalizing ls rounds with
  | nil =>
    obtain rfl : ls = rest := hls
    exact .of_run (comparisons_of_stops hstops operand rounds) rfl
  | cons link links ih =>
    obtain ⟨op, e⟩ := link
    rw [Expr.linkTokens, List.append_assoc] at hls
    obtain ⟨mid, hop, hmore⟩ := spells_append.1 hls
    obtain ⟨after, he, hlinks⟩ := spells_append.1 hmore
    have hlen := hop.length_eq
    have hpos : 0 < op.tokens.length := by cases op <;> decide
    -- an operand of a comparison does not begin with `not`, so `is` is not taken for `is not`
    have hnot : (ahead mid).token ≠ .keyword .notWord := by
      intro hnot
      have hlead := e.le_lead_of_spells (Nat.le_of_ble_eq_true rfl) he
      rw [hnot] at hlead
      exact absurd hlead (by decide)
    obtain ⟨r, rounds, rfl⟩ := List.exists_cons_of_length_pos (l := rounds) (by omega)
    have hmid : after.length ≤ rounds.length := by
      have := he.length_eq
      rw [List.length_cons] at hrounds
      omega
    refine Reaches.of_run (bind_of_ok (comparison?_of_spells hop hnot)) ?_
    have hafter : Stops 5 after := stops_of_links hlinks hstops
    refine (hoperand (op, e) List.mem_cons_self he hafter).bind fun e' he' => ?_
    refine (ih (fun link hlink => hoperand link (List.mem_cons_of_mem _ hlink)) hlinks hmid).bind ?_
    intro found hfound
    exact Reads.pure (by simp [Expr.unplacedLinks, he', hfound])

theorem readAt_compare {first : Expr} {links : List (CompareOp × Expr)} {loc : Location}
    (hlinks : links ≠ [])
    (h : ∀ part ∈ (Expr.compare first links loc).operands, Readable part.2) :
    ReadAt 4 (.compare first links loc) := by
  intro room ls rest hls hstops
  have hread {e : Expr} (hpart : (5, e) ∈ (Expr.compare first links loc).operands)
      {ls rest : List Lexeme} (he : Spells (e.tokensAt 5) ls rest) (hstops : Stops 5 rest) :
      Reads (sum room (beneath room)) ls rest (fun e' => e'.unplaced = e.unplaced)
        (room < (Expr.compare first links loc).nesting) := by
    have hnest : e.nestingAt 5 < _ := Expr.nestingAt_operand hpart
    exact Reaches.mono ((h _ hpart).read 5 (by decide) (by decide) room he hstops) (fun _ h => h)
      fun h => Nat.lt_trans h hnest
  obtain ⟨mid, hfirst, hmid⟩ := spells_append.1 hls
  change Reads (comparison room (beneath room)) _ _ _ _
  refine (hread List.mem_cons_self hfirst (stops_of_links hmid hstops)).bind fun e' he' => ?_
  refine Reaches.of_run (bind_of_ok remaining_run) ?_
  refine (comparisons_reads (fun link hlink _ _ he hstops => hread ?_ he hstops) hmid hstops
    (Nat.le_refl _)).bind fun found hfound => ?_
  · exact List.mem_cons_of_mem _ (List.mem_map.2 ⟨link, hlink, rfl⟩)
  · have hne : found ≠ [] := by
      rintro rfl
      rw [Expr.unplacedLinks, eq_comm, Expr.unplacedLinks_eq_map, List.map_eq_nil_iff] at hfound
      exact hlinks hfound
    cases found with
    | nil => exact absurd rfl hne
    | cons link more => exact Reads.pure (by simp [he', hfound])

/-! ## Calls, subscripts and attributes -/

theorem keywordName?_of_named {x : String} {l equal : Lexeme} (hl : l.token = .name x)
    (hequal : equal.token = .symbol .equal) :
    keywordName? (l :: equal :: rest) = .ok (some x, rest) := by
  rw [keywordName?, bind_of_ok peek_run, bind_of_ok peekSecond_run]
  simp only [ahead_cons, hl, List.getElem?_cons_succ, List.getElem?_cons_zero, Option.map_some,
    hequal]
  exact (bind_of_ok (advance_run (by rw [hl]; rfl))).trans
    (bind_of_ok (advance_run (by rw [hequal]; rfl)))

theorem keywordName?_of_not_named (h : ¬ Expr.BeginsNamed ls) :
    keywordName? ls = .ok (none, ls) := by
  rw [keywordName?, bind_of_ok peek_run, bind_of_ok peekSecond_run]
  unfold Expr.BeginsNamed at h
  generalize (ahead ls).token = t, ls[1]?.map (·.token) = second at h ⊢
  cases t with
  | name x =>
    rcases second with - | t'
    · rfl
    · cases t' with
      | symbol s => cases s <;> first | rfl | exact absurd ⟨x, rfl, rfl⟩ h
      | _ => rfl
  | _ => rfl

/-- The arguments `found` of a call without their locations. -/
def unplacedArguments (found : List Expr × List (String × Expr)) :
    List Expr × List (String × Expr) :=
  (Expr.unplacedItems found.1, Expr.unplacedKeywords found.2)

theorem argumentsAfter_keywords {value : Parse Expr} {deep : Prop}
    {keywords : List (String × Expr)} {names : List String} {rounds : List Lexeme}
    (hvalue : ∀ keyword ∈ keywords, ∀ {ls rest}, Spells keyword.2.tokens ls rest → Stops 1 rest →
      Reads value ls rest (fun e' => e'.unplaced = keyword.2.unplaced) deep)
    (hnodup : (keywords.map (·.1)).Nodup) (hnew : ∀ keyword ∈ keywords, keyword.1 ∉ names)
    (hls : Spells (Expr.commas (Expr.keywordTokens keywords)) ls rest)
    (hrest : (ahead rest).token = .symbol .rightParen) (hrounds : ls.length ≤ rounds.length) :
    Reads (argumentsAfter value rounds names) ls rest
      (fun found => unplacedArguments found = unplacedArguments ([], keywords)) deep := by
  -- On `keywords`, with the names seen so far: the next one is new, and joins them.
  induction keywords generalizing ls names rounds with
  | nil =>
    obtain rfl : ls = rest := hls
    cases rounds with
    | nil => exact .pure rfl
    | cons r rounds =>
      refine Reaches.of_run (bind_of_ok peek_run) ?_
      rw [if_pos (Token.isSymbol_iff.2 hrest)]
      exact Reads.pure rfl
  | cons keyword keywords ih =>
    obtain ⟨x, e⟩ := keyword
    obtain ⟨mid, hpart, hmid⟩ := spells_commas_cons hls
    obtain ⟨l, after, rfl, hl, equal, after', rfl, hequal, he⟩ := hpart
    have hlen := he.length_eq
    simp only [List.length_cons] at hrounds
    obtain ⟨r, rounds, rfl⟩ := List.exists_cons_of_length_pos (l := rounds) (by omega)
    rw [List.length_cons] at hrounds
    rw [List.map_cons, List.nodup_cons] at hnodup
    have hx : names.contains x = false := by
      rw [List.contains_eq_mem, decide_eq_false_iff_not]
      exact hnew (x, e) List.mem_cons_self
    -- The names are distinct, so those to come differ from `x` as well.
    have hnew' : ∀ keyword ∈ keywords, keyword.1 ∉ x :: names := by
      intro keyword hmem
      rw [List.mem_cons, not_or]
      refine ⟨?_, hnew keyword (List.mem_cons_of_mem _ hmem)⟩
      rintro rfl
      exact hnodup.1 (List.mem_map.2 ⟨keyword, hmem, rfl⟩)
    refine Reaches.of_run (bind_of_ok peek_run) ?_
    rw [ahead_cons, hl, if_neg (by simp [Token.isSymbol])]
    refine Reaches.of_run (bind_of_ok here_run) ?_
    refine Reaches.of_run (bind_of_ok (keywordName?_of_named hl hequal)) ?_
    dsimp only
    rw [hx]
    refine (hvalue (x, e) List.mem_cons_self he (hmid.stops hrest rfl)).bind fun e' he' => ?_
    refine hmid.reads hrest (by decide) (fun hnil => ?_) fun hafter hmore => ?_
    · rw [Expr.keywordTokens_eq_map, List.map_eq_nil_iff] at hnil
      subst hnil
      exact Reads.pure (by simp [unplacedArguments, Expr.unplacedItems, Expr.unplacedKeywords, he'])
    · have hlater := ih (fun keyword hmem => hvalue keyword (List.mem_cons_of_mem _ hmem)) hnodup.2
        hnew' hmore (show _ ≤ rounds.length by omega)
      refine hlater.bind fun found hfound => Reads.pure ?_
      simp only [unplacedArguments, Expr.unplacedKeywords, Prod.mk.injEq, List.cons.injEq, he',
        true_and] at hfound ⊢
      exact hfound

theorem argumentsAfter_reads {value : Parse Expr} {deep : Prop} {args : List Expr}
    {keywords : List (String × Expr)} {rounds : List Lexeme}
    (hvalue : ∀ e ∈ args ++ keywords.map (·.2), ∀ {ls rest}, Spells e.tokens ls rest →
      Stops 1 rest → Reads value ls rest (fun e' => e'.unplaced = e.unplaced) deep)
    (hnodup : (keywords.map (·.1)).Nodup)
    (hls : Spells (Expr.commas (Expr.itemTokens args ++ Expr.keywordTokens keywords)) ls rest)
    (hrest : (ahead rest).token = .symbol .rightParen) (hrounds : ls.length ≤ rounds.length) :
    Reads (argumentsAfter value rounds []) ls rest
      (fun found => unplacedArguments found = unplacedArguments (args, keywords)) deep := by
  induction args generalizing ls rounds with
  | nil =>
    refine argumentsAfter_keywords (fun keyword hmem => hvalue keyword.2 ?_) hnodup
      (fun _ _ => List.not_mem_nil) hls hrest hrounds
    exact List.mem_map.2 ⟨keyword, hmem, rfl⟩
  | cons e args ih =>
    rw [Expr.itemTokens, List.cons_append] at hls
    obtain ⟨mid, he, hmid⟩ := spells_commas_cons hls
    have hlen := he.length_eq
    have hpos := hmid.length_pos hrest
    obtain ⟨r, rounds, rfl⟩ := List.exists_cons_of_length_pos (l := rounds) (by omega)
    rw [List.length_cons] at hrounds
    have hclose : (ahead ls).token.isSymbol .rightParen = false :=
      isSymbol_of_lead (one_le_lead he) rfl
    have hequal : (ahead mid).token ≠ .symbol .equal := by
      obtain ⟨-, rfl⟩ | ⟨l, after, rfl, hl, -⟩ := hmid
      · simp [hrest]
      · simp [hl]
    -- An argument by position must not be mistaken for one by name.
    have hnot : ¬ Expr.BeginsNamed ls := by
      rw [← e.tokensAt_one] at he
      exact e.not_beginsNamed he hequal
    refine Reaches.of_run (bind_of_ok peek_run) ?_
    rw [hclose]
    refine Reaches.of_run (bind_of_ok here_run) ?_
    refine Reaches.of_run (bind_of_ok (keywordName?_of_not_named hnot)) ?_
    refine (hvalue e List.mem_cons_self he (hmid.stops hrest rfl)).bind fun e' he' => ?_
    refine hmid.reads hrest (by decide) (fun hnil => ?_) fun hafter hmore => ?_
    · rw [List.append_eq_nil_iff, Expr.itemTokens_eq_map, Expr.keywordTokens_eq_map,
        List.map_eq_nil_iff, List.map_eq_nil_iff] at hnil
      obtain ⟨rfl, rfl⟩ := hnil
      exact Reads.pure (by simp [unplacedArguments, Expr.unplacedItems, Expr.unplacedKeywords, he'])
    · have hlater := ih (fun e hmem => hvalue e (List.mem_cons_of_mem _ hmem)) hmore
        (show _ ≤ rounds.length by omega)
      refine hlater.bind fun found hfound => Reads.pure ?_
      simp only [unplacedArguments, Expr.unplacedItems, Prod.mk.injEq, List.cons.injEq, he',
        true_and] at hfound ⊢
      exact hfound

theorem leadAt_call {callee : Expr} {args : List Expr} {keywords : List (String × Expr)}
    {loc : Location} (hnodup : (keywords.map (·.1)).Nodup)
    (h : ∀ part ∈ (Expr.call callee args keywords loc).operands, Readable part.2) :
    LeadAt 9 (.call callee args keywords loc) := by
  have hpart {e : Expr} (he : e ∈ args ++ keywords.map (·.2)) :
      (1, e) ∈ (Expr.call callee args keywords loc).operands := by
    simp only [List.mem_append, List.mem_map] at he
    obtain he | ⟨keyword, hk, rfl⟩ := he
    · exact List.mem_cons_of_mem _ (List.mem_append_left _ (List.mem_map.2 ⟨e, he, rfl⟩))
    · exact List.mem_cons_of_mem _ (List.mem_append_right _ (List.mem_map.2 ⟨keyword, hk, rfl⟩))
  refine ((h _ List.mem_cons_self).lead 9 (by decide)).postfixed List.mem_cons_self rfl rfl rfl ?_
  intro f room hf l after rest hl hafter
  obtain ⟨mid, hargs, close, mid', rfl, hclose, hrest⟩ := spells_append.1 hafter
  obtain rfl : mid' = rest := hrest
  have hread : Reads (argumentsAfter (beneath room).disjunction after []) after (close :: mid')
      (fun found => unplacedArguments found = unplacedArguments (args, keywords))
      (room < (Expr.call callee args keywords loc).nesting) :=
    argumentsAfter_reads
      (fun e he _ _ hls hstops => (h _ (hpart he)).bracketed (hpart he) hls hstops) hnodup hargs
      hclose (Nat.le_refl _)
  refine Reaches.of_run (bind_of_ok next_run) ?_
  rw [ahead_cons, hl]
  refine Reaches.of_run (bind_of_ok (advance_run (by rw [hl]; rfl))) ?_
  refine Reads.bind (Reaches.of_run (bind_of_ok remaining_run) hread) fun found hfound => ?_
  refine Reaches.of_run (bind_of_ok (expect_of_symbol hclose _)) (Reads.pure ⟨_, rfl, ?_⟩)
  rw [unplacedArguments, unplacedArguments, Prod.mk.injEq] at hfound
  simp [hf, hfound]

theorem leadAt_index {container key : Expr} {loc : Location} (hcontainer : Readable container)
    (hkey : Readable key) : LeadAt 9 (.index container key loc) := by
  have hpart : (1, key) ∈ (Expr.index container key loc).operands :=
    List.mem_cons_of_mem _ (List.mem_singleton.2 rfl)
  refine (hcontainer.lead 9 (by decide)).postfixed List.mem_cons_self rfl rfl rfl ?_
  intro c room hc l after rest hl hafter
  obtain ⟨mid, hk, close, mid', rfl, hclose, hrest⟩ := spells_append.1 hafter
  obtain rfl : mid' = rest := hrest
  refine Reaches.of_run (bind_of_ok next_run) ?_
  rw [ahead_cons, hl]
  refine Reaches.of_run (bind_of_ok (advance_run (by rw [hl]; rfl))) ?_
  refine (hkey.bracketed hpart hk (stops_of_symbol hclose rfl)).bind fun k hsame => ?_
  refine Reaches.of_run (bind_of_ok (expect_of_symbol hclose _)) (Reads.pure ⟨_, rfl, ?_⟩)
  simp [hc, hsame]

theorem leadAt_member {receiver : Expr} {x : String} {loc : Location}
    (hreceiver : Readable receiver) : LeadAt 9 (.member receiver x loc) := by
  refine (hreceiver.lead 9 (by decide)).postfixed (List.mem_singleton.2 rfl) rfl rfl rfl ?_
  intro r room hr l after rest hl hafter
  obtain ⟨name, mid, rfl, hname, hrest⟩ := hafter
  obtain rfl : mid = rest := hrest
  have hident : identifier (name :: mid) = .ok (x, mid) := by
    rw [identifier, bind_of_ok peek_run, ahead_cons, hname]
    exact bind_of_ok (advance_run (by rw [hname]; rfl))
  refine Reaches.of_run (bind_of_ok next_run) ?_
  rw [ahead_cons, hl]
  refine Reaches.of_run (bind_of_ok (advance_run (by rw [hl]; rfl))) ?_
  refine Reaches.of_run (bind_of_ok hident) (Reads.pure ⟨_, rfl, ?_⟩)
  simp [hr]

/-! ## Operators between two operands -/

theorem leadAt_logic {op : LogicOp} {left right : Expr} {loc : Location} (hleft : Readable left)
    (hright : Readable right) : LeadAt op.precedence (.logic op left right loc) := by
  have hparts : (op.precedence, left) ∈ (Expr.logic op left right loc).operands ∧
      (op.precedence + 1, right) ∈ (Expr.logic op left right loc).operands :=
    ⟨List.mem_cons_self, List.mem_cons_of_mem _ (List.mem_singleton.2 rfl)⟩
  have hleftLevel : op.precedence ∈ leftLevels := by cases op <;> decide
  have hrange : op.precedence + 1 ≤ 10 := by cases op <;> decide
  have hjoin : joinAt? op.precedence (.keyword op.keyword) = some (.logic op) := by
    cases op <;> rfl
  refine (hleft.lead _ hleftLevel).chain (hright.read _ (Nat.succ_pos _) hrange)
    (by cases op <;> decide) hparts hjoin rfl rfl rfl ?_
  intro l r loc' hl hr
  simp [hl, hr]

theorem leadAt_arith {op : ArithOp} {left right : Expr} {loc : Location} (hop : op ≠ .pow)
    (hleft : Readable left) (hright : Readable right) :
    LeadAt op.precedence (.arith op left right loc) := by
  have hlprec : op.leftPrecedence = op.precedence := by
    cases op <;> first | rfl | exact absurd rfl hop
  have hrprec : op.rightPrecedence = op.precedence + 1 := by
    cases op <;> first | rfl | exact absurd rfl hop
  have hparts : (op.precedence, left) ∈ (Expr.arith op left right loc).operands ∧
      (op.precedence + 1, right) ∈ (Expr.arith op left right loc).operands := by
    rw [← hrprec, ← hlprec]
    exact ⟨List.mem_cons_self, List.mem_cons_of_mem _ (List.mem_singleton.2 rfl)⟩
  have hlevel : op.precedence = 5 ∨ op.precedence = 6 := by
    cases op <;> first | exact .inl rfl | exact .inr rfl | exact absurd rfl hop
  have hleftLevel : op.precedence ∈ leftLevels := by
    obtain h | h := hlevel <;> rw [h] <;> decide
  have hjoin : joinAt? op.precedence (.symbol op.symbol) = some (.arith op) := by
    cases op <;> first | rfl | exact absurd rfl hop
  have htokens : (Expr.arith op left right loc).tokens =
      left.tokensAt op.precedence ++
        .symbol op.symbol :: right.tokensAt (op.precedence + 1) := by
    rw [← hrprec, ← hlprec]
    rfl
  refine (hleft.lead _ hleftLevel).chain (hright.read _ (Nat.succ_pos _) (by omega)) (by omega)
    hparts hjoin rfl rfl htokens ?_
  intro l r loc' hl hr
  simp [hl, hr]

/-! ## All expressions -/

/-- An expression `e` that can be written is read wherever it may stand. The induction is on
`Expr.WellFormed`, whose parts are the operands, with one case for each kind of expression. -/
theorem readable (h : e.WellFormed) : Readable e := by
  -- Each case finds how the expression is read at its own level; `readable_of_readAt` does the
  -- rest.
  induction h with
  | @intro e hproper _ ih =>
    cases e with
    | int n => exact readable_leaf (.int n) rfl rfl (fun _ _ _ _ => rfl) fun _ => rfl
    | float x => exact readable_leaf (.float x) rfl rfl (fun _ _ _ _ => rfl) fun _ => rfl
    | bool b =>
      exact readable_leaf (.bool b) rfl rfl (fun _ _ _ _ => by cases b <;> rfl) fun _ => rfl
    | none => exact readable_leaf .none rfl rfl (fun _ _ _ _ => rfl) fun _ => rfl
    | name x => exact readable_leaf (.name x) rfl rfl (fun _ _ _ _ => rfl) fun _ => rfl
    | str s =>
      refine readable_primary rfl
        (.of_token rfl rfl fun deeper l after hl hstops => ⟨.str (s ++ "") l.loc, ?_, ?_⟩)
      · rw [primary, bind_of_ok next_run, ahead_cons, hl]
        exact (bind_of_ok (advance_run (by rw [hl]; rfl))).trans
          ((bind_of_ok remaining_run).trans (bind_of_ok (adjacentTexts_of_stops hstops _)))
      · simp
    | list items => exact readable_primary rfl (readAt_list ih)
    | dict entries => exact readable_primary rfl (readAt_dict ih)
    | arith op left right =>
      have hleft : Readable left := ih _ List.mem_cons_self
      have hright : Readable right := ih _ (List.mem_cons_of_mem _ (List.mem_singleton.2 rfl))
      by_cases hop : op = .pow
      · subst hop
        exact readable_of_level (readAt_pow hleft hright) rfl (by decide)
      · exact readable_of_leadAt (leadAt_arith hop hleft hright)
    | logic op left right =>
      exact readable_of_leadAt (leadAt_logic (ih _ List.mem_cons_self)
        (ih _ (List.mem_cons_of_mem _ (List.mem_singleton.2 rfl))))
    | compare first links =>
      exact readable_of_level (readAt_compare hproper ih) rfl (by decide)
    | unary op operand =>
      have hoperand : Readable operand := ih _ (List.mem_singleton.2 rfl)
      cases op with
      | not => exact readable_of_level (readAt_not hoperand) rfl (by decide)
      | neg | pos => exact readable_of_level (readAt_sign (by decide) hoperand) rfl (by decide)
    | call callee args keywords => exact readable_of_leadAt (leadAt_call hproper ih)
    | index container key =>
      exact readable_of_leadAt (leadAt_index (ih _ List.mem_cons_self)
        (ih _ (List.mem_cons_of_mem _ (List.mem_singleton.2 rfl))))
    | member receiver x =>
      exact readable_of_leadAt (leadAt_member (ih _ (List.mem_singleton.2 rfl)))

/-- An expression `e` is read from its tokens up to one that ends it, unless it is nested too
deep. -/
theorem expression_reads (he : e.WellFormed) (hls : Spells e.tokens ls rest)
    (hstops : Stops 1 rest) :
    Reads expression ls rest (fun e' => e'.unplaced = e.unplaced) (maxNesting ≤ e.nesting) := by
  have hread := (readable he).read 1 (Nat.le_refl 1) (Nat.le_of_ble_eq_true rfl) (maxNesting - 1)
  rw [e.tokensAt_one, e.nestingAt_one] at hread
  rw [expression, levels_eq]
  exact Reaches.mono (hread hls hstops) (fun _ h => h) Nat.succ_le_of_lt

end Parse

/-- The tokens that stand after a whole expression: the end of the line or of the text, closing
brackets, separators, and signs of assignment. -/
def Token.endsExpression : Token → Bool
  | newline | endOfFile => true
  | symbol .rightParen | symbol .rightBracket | symbol .rightBrace => true
  | symbol .comma | symbol .colon | symbol .semicolon => true
  | symbol .equal | symbol .plusEqual | symbol .minusEqual | symbol .starEqual
  | symbol .slashEqual | symbol .slashSlashEqual | symbol .percentEqual => true
  | _ => false

theorem Token.grip_of_endsExpression {t : Token} (h : t.endsExpression = true) : t.grip = 0 := by
  unfold endsExpression at h
  split at h <;> first | rfl | cases h

/-- The parser of expressions undoes `Expr.tokens`: from the tokens of `e` and any others after
them, the first of which ends an expression, it reads `e` and leaves the others. The nesting limit
is the only way to fail, and it does not stop expressions of height `40`. -/
theorem Parse.expression_tokens {e : Expr} (he : e.WellFormed) {ls : List Lexeme}
    (hls : ls.map (·.token) = e.tokens) {l : Lexeme} (hl : l.token.endsExpression = true)
    (rest : List Lexeme) :
    (∃ e', Parse.expression (ls ++ l :: rest) = .ok (e', l :: rest) ∧ e'.unplaced = e.unplaced) ∨
      (∃ loc, Parse.expression (ls ++ l :: rest) = .error ⟨.nestingTooDeep, loc⟩) ∧
        40 < e.height := by
  have hspells : Spells e.tokens (ls ++ l :: rest) (l :: rest) := hls ▸ spells_map ls (l :: rest)
  have hstops : Stops 1 (l :: rest) := by
    rw [Stops, ahead_cons, l.token.grip_of_endsExpression hl]
    exact Nat.one_pos
  obtain ⟨e', hsame, hrun⟩ | ⟨hdeep, herr⟩ := expression_reads he hspells hstops
  · exact .inl ⟨e', hrun, hsame⟩
  · have := e.nesting_lt
    rw [show maxNesting = 100 from rfl] at hdeep
    exact .inr ⟨herr, by omega⟩

/-- At the end of a line, `-x ** 2` is read as the negative of a power. -/
theorem Parse.expression_tokens_power :
    ∃ e', Parse.expression
        [⟨.symbol .minus, ⟨1, 1⟩, ['-']⟩, ⟨.name "x", ⟨1, 2⟩, ['x']⟩,
          ⟨.symbol .starStar, ⟨1, 4⟩, ['*', '*']⟩, ⟨.int 2, ⟨1, 7⟩, ['2']⟩,
          ⟨.newline, ⟨1, 8⟩, []⟩] =
        .ok (e', [⟨.newline, ⟨1, 8⟩, []⟩]) ∧
      e'.unplaced =
        .unary .neg (.arith .pow (.name "x" .start) (.int 2 .start) .start) .start := by
  let power : Expr := .arith .pow (.name "x" .start) (.int 2 .start) .start
  have hx : (Expr.name "x" .start).WellFormed := .leaf trivial rfl
  have htwo : (Expr.int 2 .start).WellFormed := .leaf trivial rfl
  have hhighx : (Expr.name "x" .start).height ≤ 1 := Expr.height_leaf rfl
  have hhightwo : (Expr.int 2 .start).height ≤ 1 := Expr.height_leaf rfl
  have hpower : power.WellFormed ∧ power.height ≤ 2 :=
    ⟨.intro trivial (by simp [power, Expr.operands, hx, htwo]),
      Expr.height_le.2 (by simp [power, Expr.operands, hhighx, hhightwo])⟩
  have hneg : (Expr.unary .neg power .start).WellFormed :=
    .intro trivial (by simp [Expr.operands, hpower])
  have hheight : (Expr.unary .neg power .start).height ≤ 3 :=
    Expr.height_le.2 (by simp [Expr.operands, hpower])
  have htokens : List.map Lexeme.token [⟨.symbol .minus, ⟨1, 1⟩, ['-']⟩, ⟨.name "x", ⟨1, 2⟩, ['x']⟩,
      ⟨.symbol .starStar, ⟨1, 4⟩, ['*', '*']⟩, ⟨.int 2, ⟨1, 7⟩, ['2']⟩] =
        (Expr.unary .neg power .start).tokens := rfl
  obtain h | ⟨-, hdeep⟩ :=
    Parse.expression_tokens hneg htokens (l := ⟨.newline, ⟨1, 8⟩, []⟩) rfl []
  · exact h
  · omega

end Stepper
