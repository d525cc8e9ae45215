import Stepper.Expr.Parser
import Stepper.Proofs.Expr.Tokens

/-!
# How parsers read tokens

* `Spells`: lexemes that begin with given tokens.
* `Parse.Reaches`: a parser takes some lexemes and goes on as another one, unless the expression is
  nested too deep. `Parse.Reads` is the case in which it is done.
* `Token.grip`, `Stops`: how loose an operand may be for a token after it to belong to it.
* `Parse.itemsUpTo_reads`: items with commas between them are read if each of them is.
-/

namespace Stepper

/-- The lexemes `ls` begin with the tokens `ts`, and `rest` follows. -/
def Spells : List Token → List Lexeme → List Lexeme → Prop
  | [], ls, rest => ls = rest
  | t :: ts, ls, rest => ∃ l after, ls = l :: after ∧ l.token = t ∧ Spells ts after rest

section Spells

variable {t : Token} {ts us : List Token} {ls rest : List Lexeme}

theorem spells_cons :
    Spells (t :: ts) ls rest ↔ ∃ l after, ls = l :: after ∧ l.token = t ∧ Spells ts after rest :=
  Iff.rfl

theorem spells_append :
    Spells (ts ++ us) ls rest ↔ ∃ mid, Spells ts ls mid ∧ Spells us mid rest := by
  induction ts generalizing ls with
  | nil => simp [Spells]
  | cons t ts ih =>
    simp only [List.cons_append, spells_cons, ih]
    constructor
    · rintro ⟨l, after, hls, ht, mid, hts, hus⟩
      exact ⟨mid, ⟨l, after, hls, ht, hts⟩, hus⟩
    · rintro ⟨mid, ⟨l, after, hls, ht, hts⟩, hus⟩
      exact ⟨l, after, hls, ht, mid, hts, hus⟩

theorem spells_map (ls rest : List Lexeme) : Spells (ls.map (·.token)) (ls ++ rest) rest := by
  induction ls with
  | nil => rfl
  | cons l ls ih => exact ⟨l, ls ++ rest, rfl, rfl, ih⟩

theorem Spells.length_eq (h : Spells ts ls rest) : ls.length = ts.length + rest.length := by
  induction ts generalizing ls with
  | nil =>
    have : ls = rest := h
    simp [this]
  | cons t ts ih =>
    obtain ⟨l, after, rfl, -, h⟩ := h
    rw [List.length_cons, List.length_cons, ih h]
    omega

end Spells

/-- The lexeme that comes next in `ls`; beyond the last one, the end of the text. -/
def ahead (ls : List Lexeme) : Lexeme :=
  ls.headD ⟨.endOfFile, .start, []⟩

@[simp] theorem ahead_cons (l : Lexeme) (ls : List Lexeme) : ahead (l :: ls) = l := rfl

@[simp] theorem Token.isSymbol_iff {s : Symbol} {t : Token} :
    t.isSymbol s = true ↔ t = .symbol s := by
  cases t <;> simp [Token.isSymbol, eq_comm]

@[simp] theorem Token.isKeyword_iff {k : Keyword} {t : Token} :
    t.isKeyword k = true ↔ t = .keyword k := by
  cases t <;> simp [Token.isKeyword, eq_comm]

/-- The precedence of the operators that a symbol goes on with; `0` if there are none. -/
def Symbol.grip : Symbol → Nat
  | equalEqual | notEqual | less | lessEqual | greater | greaterEqual => 4
  | plus | minus => 5
  | star | slash | slashSlash | percent => 6
  | starStar => 8
  | leftParen | leftBracket | dot => 9
  | _ => 0

/-- The precedence of what a token goes on with when it stands after an operand: the loosest operand
that it belongs to. It is `0` if the token never belongs to what is before it. A string goes on with
the string before it. -/
def Token.grip : Token → Nat
  | keyword .orWord => 1
  | keyword .andWord => 2
  | keyword .notWord | keyword .inWord | keyword .isWord => 4
  | symbol s => s.grip
  | str _ => 10
  | _ => 0

/-- An operand that binds like `level` ends before these lexemes. -/
def Stops (level : Nat) (rest : List Lexeme) : Prop :=
  (ahead rest).token.grip < level

theorem Stops.mono {low high : Nat} {rest : List Lexeme} (h : Stops low rest) (hle : low ≤ high) :
    Stops high rest :=
  Nat.lt_of_lt_of_le h hle

namespace Parse

variable {ls mid rest : List Lexeme} {l : Lexeme}

/-! ## Single steps -/

theorem bind_of_ok {x : Parse α} {f : α → Parse β} {a : α} (h : x ls = .ok (a, rest)) :
    (x >>= f) ls = f a rest := by
  change Except.bind (x ls) _ = _
  rw [h]
  rfl

theorem bind_of_error {x : Parse α} {f : α → Parse β} {e : SyntaxError} (h : x ls = .error e) :
    (x >>= f) ls = .error e := by
  change Except.bind (x ls) _ = _
  rw [h]
  rfl

/-- Of two steps, `x` and `f`, each yields something if both together do. -/
theorem ok_of_bind {x : Parse α} {f : α → Parse β} {b : β} (h : (x >>= f) ls = .ok (b, rest)) :
    ∃ a mid, x ls = .ok (a, mid) ∧ f a mid = .ok (b, rest) := by
  cases hfirst : x ls with
  | error e =>
    rw [bind_of_error hfirst] at h
    cases h
  | ok r =>
    obtain ⟨a, mid⟩ := r
    rw [bind_of_ok hfirst] at h
    exact ⟨a, mid, rfl, h⟩

theorem next_run : next ls = .ok (ahead ls, ls) := rfl

theorem peek_run : peek ls = .ok ((ahead ls).token, ls) := rfl

theorem here_run : here ls = .ok ((ahead ls).loc, ls) := rfl

theorem remaining_run : remaining ls = .ok (ls, ls) := rfl

theorem peekSecond_run : peekSecond ls = .ok (ls[1]?.map (·.token), ls) := rfl

theorem advance_run (h : l.token.isEndOfFile = false) : advance (l :: ls) = .ok ((), ls) := by
  simp [advance, h]

theorem acceptIf_of_false {p : Token → Bool} (h : p (ahead ls).token = false) :
    acceptIf p ls = .ok (false, ls) := by
  rw [acceptIf, bind_of_ok peek_run, h]
  rfl

theorem acceptIf_of_true {p : Token → Bool} (h : p l.token = true)
    (hend : l.token.isEndOfFile = false) : acceptIf p (l :: ls) = .ok (true, ls) := by
  rw [acceptIf, bind_of_ok peek_run, ahead_cons, if_pos h, bind_of_ok (advance_run hend)]
  rfl

theorem accept_of_symbol {s : Symbol} (h : l.token = .symbol s) :
    accept s (l :: ls) = .ok (true, ls) :=
  acceptIf_of_true (Token.isSymbol_iff.2 h) (by rw [h]; rfl)

theorem acceptKeyword_of_keyword {k : Keyword} (h : l.token = .keyword k) :
    acceptKeyword k (l :: ls) = .ok (true, ls) :=
  acceptIf_of_true (Token.isKeyword_iff.2 h) (by rw [h]; rfl)

theorem expect_of_symbol {s : Symbol} (h : l.token = .symbol s) (what : String) :
    expect s what (l :: ls) = .ok ((), ls) := by
  rw [expect, expectIf, bind_of_ok peek_run, ahead_cons, if_pos (Token.isSymbol_iff.2 h)]
  exact advance_run (by rw [h]; rfl)

theorem tooDeep_run (α : Type) (ls : List Lexeme) :
    (tooDeep : Parse α) ls = .error ⟨.nestingTooDeep, (ahead ls).loc⟩ := rfl

/-! ## Reading -/

/-- From `ls` on, `x` takes the lexemes before `rest` and goes on there as `y a` for some `a` with
`Q`, or it fails because of its nesting, and then `deep` holds. -/
def Reaches (x : Parse β) (ls : List Lexeme) (y : α → Parse β) (rest : List Lexeme) (Q : α → Prop)
    (deep : Prop) : Prop :=
  (∃ a, Q a ∧ x ls = y a rest) ∨ (deep ∧ ∃ loc, x ls = .error ⟨.nestingTooDeep, loc⟩)

/-- The parser `x` takes the lexemes before `rest` and yields a result with `Q`, or it fails because
of its nesting, and then `deep` holds. -/
def Reads (x : Parse α) (ls rest : List Lexeme) (Q : α → Prop) (deep : Prop) : Prop :=
  Reaches x ls pure rest Q deep

section Reaches

variable {x : Parse β} {y : α → Parse β} {Q : α → Prop} {deep : Prop}

theorem Reaches.of_eq {a : α} (h : x ls = y a rest) (hQ : Q a) : Reaches x ls y rest Q deep :=
  .inl ⟨a, hQ, h⟩

theorem Reaches.of_run {x' : Parse β} (h : x ls = x' mid) (hx : Reaches x' mid y rest Q deep) :
    Reaches x ls y rest Q deep := by
  unfold Reaches at hx ⊢
  rwa [h]

theorem Reaches.of_tooDeep {loc : Location} (h : x ls = .error ⟨.nestingTooDeep, loc⟩)
    (hdeep : deep) : Reaches x ls y rest Q deep :=
  .inr ⟨hdeep, loc, h⟩

theorem Reaches.mono {Q' : α → Prop} {deep' : Prop} (h : Reaches x ls y rest Q deep)
    (hQ : ∀ a, Q a → Q' a) (hdeep : deep → deep') : Reaches x ls y rest Q' deep' :=
  h.imp (fun ⟨a, ha, hrun⟩ => ⟨a, hQ a ha, hrun⟩) fun ⟨hd, herr⟩ => ⟨hdeep hd, herr⟩

theorem Reaches.trans {z : γ → Parse β} {R : γ → Prop} (h : Reaches x ls y mid Q deep)
    (hy : ∀ a, Q a → Reaches (y a) mid z rest R deep) : Reaches x ls z rest R deep := by
  obtain ⟨a, ha, hrun⟩ | ⟨hd, loc, herr⟩ := h
  · exact (hy a ha).of_run hrun
  · exact .of_tooDeep herr hd

theorem Reads.bind {x : Parse α} {f : α → Parse β} {z : γ → Parse β} {R : γ → Prop}
    (hx : Reads x ls mid Q deep) (hf : ∀ a, Q a → Reaches (f a) mid z rest R deep) :
    Reaches (x >>= f) ls z rest R deep := by
  obtain ⟨a, ha, hrun⟩ | ⟨hd, loc, herr⟩ := hx
  · exact (hf a ha).of_run (bind_of_ok hrun)
  · exact .of_tooDeep (bind_of_error herr) hd

theorem Reads.of_run {x : Parse α} {a : α} (h : x ls = .ok (a, rest)) (hQ : Q a) :
    Reads x ls rest Q deep :=
  Reaches.of_eq h hQ

theorem Reads.pure {a : α} (hQ : Q a) : Reads (pure a) ls ls Q deep :=
  .of_run rfl hQ

end Reaches

/-! ## Items with commas between them -/

theorem stops_of_symbol {s : Symbol} (h : (ahead ls).token = .symbol s) (hs : s.grip = 0) :
    Stops 1 ls := by
  rw [Stops, h, Token.grip, hs]
  exact Nat.one_pos

/-- What follows one of several parts with commas between them: the other `parts` after a comma, if
there are any, and then `rest`. -/
def Continues (parts : List (List Token)) (ls rest : List Lexeme) : Prop :=
  parts = [] ∧ ls = rest ∨
    ∃ l after, ls = l :: after ∧ l.token = .symbol .comma ∧ Spells (Expr.commas parts) after rest

theorem spells_commas_cons {part : List Token} {parts : List (List Token)}
    (h : Spells (Expr.commas (part :: parts)) ls rest) :
    ∃ mid, Spells part ls mid ∧ Continues parts mid rest := by
  cases parts with
  | nil =>
    rw [show Expr.commas [part] = part by simp [Expr.commas, List.intercalate]] at h
    exact ⟨rest, h, .inl ⟨rfl, rfl⟩⟩
  | cons next parts =>
    have hsplit : Expr.commas (part :: next :: parts) =
        part ++ .symbol .comma :: Expr.commas (next :: parts) := by
      simp [Expr.commas, List.intercalate]
    rw [hsplit, spells_append] at h
    obtain ⟨mid, hpart, hnext⟩ := h
    exact ⟨mid, hpart, .inr hnext⟩

theorem Continues.stops {parts : List (List Token)} {close : Symbol}
    (h : Continues parts ls rest) (hrest : (ahead rest).token = .symbol close)
    (hgrip : close.grip = 0) : Stops 1 ls := by
  obtain ⟨-, rfl⟩ | ⟨l, after, rfl, hl, -⟩ := h
  · exact stops_of_symbol hrest hgrip
  · exact stops_of_symbol hl rfl

theorem Continues.length_pos {parts : List (List Token)} {close : Symbol}
    (h : Continues parts ls rest) (hrest : (ahead rest).token = .symbol close) :
    0 < ls.length := by
  obtain ⟨-, rfl⟩ | ⟨l, after, rfl, -, -⟩ := h
  · cases ls with
    | nil => cases hrest
    | cons l ls => exact Nat.succ_pos _
  · exact Nat.succ_pos _

/-- A part after which a parser looks for a comma: it goes on as `more` if there are further
`parts`, and as `done` if there are none. -/
theorem Continues.reads {parts : List (List Token)} {close : Symbol} {more done : Parse α}
    {Q : α → Prop} {deep : Prop} (h : Continues parts ls rest)
    (hrest : (ahead rest).token = .symbol close) (hcomma : close ≠ .comma)
    (hdone : parts = [] → Reads done rest rest Q deep)
    (hmore : ∀ {after}, after.length < ls.length → Spells (Expr.commas parts) after rest →
      Reads more after rest Q deep) :
    Reads (do if ← accept .comma then more else done) ls rest Q deep := by
  obtain ⟨hparts, rfl⟩ | ⟨l, after, rfl, hl, hafter⟩ := h
  · have hnot : (ahead ls).token.isSymbol .comma = false := by
      rw [Bool.eq_false_iff, hrest]
      exact mt Token.isSymbol_iff.1 fun h => hcomma (Token.symbol.inj h)
    exact Reaches.of_run (bind_of_ok (acceptIf_of_false hnot)) (hdone hparts)
  · exact Reaches.of_run (bind_of_ok (accept_of_symbol hl)) (hmore (Nat.lt_succ_self _) hafter)

theorem itemsUpTo_reads {close : Symbol} {item : Parse α} {deep : Prop} {same : α → γ}
    {ts : α → List Token} {rounds : List Lexeme} (hcomma : close ≠ .comma)
    (hgrip : close.grip = 0) {as : List α}
    (hitem : ∀ a ∈ as, ∀ {ls rest}, Spells (ts a) ls rest → Stops 1 rest →
      Reads item ls rest (fun b => same b = same a) deep)
    (hstart : ∀ a ∈ as, ∀ {ls rest}, Spells (ts a) ls rest →
      (ahead ls).token.isSymbol close = false)
    (hls : Spells (Expr.commas (as.map ts)) ls rest) (hrest : (ahead rest).token = .symbol close)
    (hrounds : ls.length ≤ rounds.length) :
    Reads (itemsUpTo close item rounds) ls rest (fun bs => bs.map same = as.map same) deep := by
  induction as generalizing ls rounds with
  | nil =>
    obtain rfl : ls = rest := hls
    cases rounds with
    | nil => exact .pure rfl
    | cons r rounds =>
      refine Reaches.of_run (bind_of_ok peek_run) ?_
      rw [if_pos (Token.isSymbol_iff.2 hrest)]
      exact Reads.pure rfl
  | cons a as ih =>
    obtain ⟨mid, ha, hmid⟩ := spells_commas_cons hls
    have hlen := ha.length_eq
    have hpos := hmid.length_pos hrest
    obtain ⟨r, rounds, rfl⟩ := List.exists_cons_of_length_pos (l := rounds) (by omega)
    rw [List.length_cons] at hrounds
    refine Reaches.of_run (bind_of_ok peek_run) ?_
    rw [if_neg (by simp [hstart a List.mem_cons_self ha])]
    refine (hitem a List.mem_cons_self ha (hmid.stops hrest hgrip)).bind fun b hb => ?_
    refine hmid.reads hrest hcomma (fun hnil => ?_) fun hafter hmore => ?_
    · rw [List.map_eq_nil_iff] at hnil
      exact Reads.pure (by simp [hnil, hb])
    · have hlater := ih (fun a ha => hitem a (List.mem_cons_of_mem _ ha))
        (fun a ha => hstart a (List.mem_cons_of_mem _ ha)) hmore (show _ ≤ rounds.length by omega)
      exact hlater.bind fun bs hbs => Reads.pure (by simp [hb, hbs])

end Parse

end Stepper
