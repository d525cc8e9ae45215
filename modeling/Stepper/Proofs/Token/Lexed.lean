import Stepper.Proofs.Token.Lexing

/-!
# The lexemes of a text, step by step

* `Lexed`: the lexer as a relation, with one rule for each thing it can meet: a bare line, the
  margin of a line, the end of a line or of the text, and a token. `lexed_of_ok` reads every result
  of the lexer that way, and `Lexed.ok` says that the lexer follows the rules.
* `Lexed.endsOnce`: the last lexeme, and no other, is the end of the text.
* `Laid`: some lexemes stand in a text one after the other, each where its location says and with
  the characters it was read from.
* `Lexed.laid`: the lexemes of a text do.
-/

namespace Stepper

/-- Where the text `cs` goes on after a line that is not read. -/
def afterLine (cs : List Char) : List Char :=
  (restOfLine cs).rest

/-- The state `st` after the margin of a line, whose layout tokens are `tokens` and after which the
indentations `levels` are open. -/
def LexState.enter (st : LexState) (tokens : List Token) (levels : List Indent) : LexState :=
  { st with levels, lineOpen := st.lineOpen || !tokens.isEmpty }

/-- The state `st` after the `\n` that ends a line. -/
def LexState.endLine (st : LexState) : LexState :=
  { st.skip ['\n'] with lineOpen := false }

/-- From the state `st`, at the start of a line or within one, a text is split into lexemes. -/
inductive Lexed (tabStop : Nat) : Bool → LexState → List Char → List Lexeme → Prop
  /-- The text ends in a line of blanks. -/
  | bareEnd {st : LexState} {cs blanks : List Char} {indent : Indent}
      (margin : Indent.scan tabStop .none cs = ⟨indent, blanks, []⟩) :
      Lexed tabStop true st cs (st.skip blanks).finish
  /-- A line that is taken to be bare is passed over. -/
  | bareLine {st : LexState} {cs blanks rest : List Char} {indent : Indent} {c : Char}
      {ls : List Lexeme} (margin : Indent.scan tabStop .none cs = ⟨indent, blanks, c :: rest⟩)
      (bare : isBareLine (c :: rest) = true)
      (more : Lexed tabStop true ((st.skip blanks).skip (restOfLine (c :: rest)).text)
        (afterLine (c :: rest)) ls) :
      Lexed tabStop true st cs ls
  /-- The margin of another line opens an indentation or closes some. -/
  | margin {st : LexState} {cs blanks rest : List Char} {indent : Indent} {tokens : List Token}
      {levels : List Indent} {ls : List Lexeme}
      (margin : Indent.scan tabStop .none cs = ⟨indent, blanks, rest⟩)
      (bare : isBareLine rest = false)
      (entered : Indent.enter st.levels indent = .ok (tokens, levels))
      (more : Lexed tabStop false ((st.skip blanks).enter tokens levels) rest ls) :
      Lexed tabStop true st cs (tokens.map (⟨·, (st.skip blanks).loc, []⟩) ++ ls)
  /-- The text ends within a line. -/
  | finished {st : LexState} {cs blanks : List Char}
      (gap : skipBlanks false cs = ⟨(), blanks, []⟩) :
      Lexed tabStop false st cs (st.skip blanks).finish
  /-- A line ends. -/
  | lineEnd {st : LexState} {cs blanks rest : List Char} {ls : List Lexeme}
      (gap : skipBlanks false cs = ⟨(), blanks, '\n' :: rest⟩) (outside : st.depth = 0)
      (more : Lexed tabStop true (st.skip blanks).endLine rest ls) :
      Lexed tabStop false st cs (⟨.newline, (st.skip blanks).loc, ['\n']⟩ :: ls)
  /-- Within brackets the next line goes on with this one. -/
  | joined {st : LexState} {cs blanks rest : List Char} {ls : List Lexeme}
      (gap : skipBlanks false cs = ⟨(), blanks, '\n' :: rest⟩) (inside : st.depth ≠ 0)
      (more : Lexed tabStop false ((st.skip blanks).skip ['\n']) rest ls) :
      Lexed tabStop false st cs ls
  | token {st : LexState} {cs blanks rest : List Char} {c : Char} {s : Scanned Token}
      {ls : List Lexeme} (gap : skipBlanks false cs = ⟨(), blanks, c :: rest⟩) (visible : c ≠ '\n')
      (scanned : scanToken c rest = .ok s)
      (more : Lexed tabStop false ((st.skip blanks).afterToken s) s.rest ls) :
      Lexed tabStop false st cs (⟨s.value, (st.skip blanks).loc, s.text⟩ :: ls)

variable {tabStop : Nat} {fresh : Bool} {st : LexState} {cs : List Char} {ls : List Lexeme}

/-- Every result `ls` of the lexer comes about by the rules of `Lexed`. -/
theorem lexed_of_ok (h : lexemesFrom tabStop fresh st cs = .ok ls) :
    Lexed tabStop fresh st cs ls := by
  fun_induction lexemesFrom tabStop fresh st cs generalizing ls
  case case1 cs indent _ bare hrest =>
    cases h
    have hmargin : Indent.scan tabStop .none cs = ⟨indent.value, indent.text, []⟩ := by rw [← hrest]
    exact .bareEnd hmargin
  case case2 cs indent _ bare c rest hrest line ih =>
    have hmargin : Indent.scan tabStop .none cs = ⟨indent.value, indent.text, c :: rest⟩ := by
      rw [← hrest]
    exact .bareLine hmargin (hrest ▸ bare) (ih h)
  case case3 => cases h
  case case4 cs indent _ bare tokens levels entered lineOpen ih =>
    obtain ⟨more, hmore, rfl⟩ := ok_of_map_eq_ok h
    have hmargin : Indent.scan tabStop .none cs = ⟨indent.value, indent.text, indent.rest⟩ := rfl
    exact .margin hmargin (by simpa using bare) entered (ih hmore)
  case case5 within blanks _ hrest =>
    cases h
    rw [Bool.of_not_eq_true within]
    exact .finished (by rw [← hrest])
  case case6 within blanks _ rest outside hrest ih =>
    obtain ⟨more, hmore, rfl⟩ := ok_of_map_eq_ok h
    rw [Bool.of_not_eq_true within]
    exact .lineEnd (by rw [← hrest]) outside (ih hmore)
  case case7 within blanks _ rest inside hrest ih =>
    rw [Bool.of_not_eq_true within]
    exact .joined (by rw [← hrest]) inside (ih h)
  case case8 => cases h
  case case9 within blanks _ c rest hrest visible s scanned ih =>
    obtain ⟨more, hmore, rfl⟩ := ok_of_map_eq_ok h
    rw [Bool.of_not_eq_true within]
    exact .token (by rw [← hrest]) visible scanned (ih hmore)

/-- What the lexer does after the margin of a line, whose blanks come to `indent`. -/
def lexAfterMargin (tabStop : Nat) (st : LexState) (indent : Indent) (rest : List Char) :
    Except SyntaxError (List Lexeme) :=
  if isBareLine rest then
    if rest.isEmpty then .ok st.finish
    else lexemesFrom tabStop true (st.skip (restOfLine rest).text) (afterLine rest)
  else
    match Indent.enter st.levels indent with
    | .error fault => .error ⟨fault, st.loc⟩
    | .ok (tokens, levels) =>
      (lexemesFrom tabStop false (st.enter tokens levels) rest).map
        (tokens.map (⟨·, st.loc, []⟩) ++ ·)

theorem lexemesFrom_fresh (tabStop : Nat) (st : LexState) (cs : List Char) :
    lexemesFrom tabStop true st cs =
      lexAfterMargin tabStop (st.skip (Indent.scan tabStop .none cs).text)
        (Indent.scan tabStop .none cs).value (Indent.scan tabStop .none cs).rest := by
  rw [lexemesFrom, if_pos rfl]
  generalize Indent.scan tabStop .none cs = margin
  obtain ⟨indent, text, rest⟩ := margin
  simp only [lexAfterMargin]
  split
  · cases rest <;> rfl
  · generalize Indent.enter (st.skip text).levels indent = r
    cases r <;> rfl

/-- The lexer follows the rules of `Lexed`: what comes about by them is its result. -/
theorem Lexed.ok (h : Lexed tabStop fresh st cs ls) : lexemesFrom tabStop fresh st cs = .ok ls := by
  induction h with
  | bareEnd margin =>
    rw [lexemesFrom_fresh, margin]
    rfl
  | bareLine margin bare more ih =>
    rw [lexemesFrom_fresh, margin, lexAfterMargin, if_pos bare]
    exact ih
  | @margin st _ blanks _ _ _ _ _ margin bare entered more ih =>
    have hentered : Indent.enter (st.skip blanks).levels _ = .ok _ := entered
    rw [lexemesFrom_fresh, margin]
    simp only [lexAfterMargin, bare, Bool.false_eq_true, if_false, hentered, ih]
    rfl
  | finished gap =>
    rw [lexemesFrom_eq, gap]
    rfl
  | lineEnd gap outside more ih =>
    rw [lexemesFrom_eq, gap, lexAfterBlanks, if_pos rfl]
    exact (if_pos outside).trans (congrArg (Except.map _) ih)
  | joined gap inside more ih =>
    rw [lexemesFrom_eq, gap, lexAfterBlanks, if_pos rfl]
    exact (if_neg inside).trans ih
  | token gap visible scanned more ih =>
    rw [lexemesFrom_eq, gap, lexAfterBlanks, if_neg visible, scanned]
    exact congrArg (Except.map _) ih

/-! ## Layout tokens -/

/-- Whether the token stands for no characters, or for the end of a line. -/
def Token.isLayout : Token → Bool
  | newline | indent | dedent | endOfFile => true
  | _ => false

/-- The layout tokens at the end of the text, before `endOfFile`. -/
def LexState.endTokens (st : LexState) : List Token :=
  (if st.lineOpen then [.newline] else []) ++ st.levels.map fun _ => .dedent

theorem LexState.finish_eq (st : LexState) :
    st.finish = st.endTokens.map (⟨·, st.loc, []⟩) ++ [⟨.endOfFile, st.loc, []⟩] := by
  cases h : st.lineOpen <;> simp [LexState.finish, LexState.endTokens, h]

theorem LexState.endTokens_cases (st : LexState) :
    ∀ t ∈ st.endTokens, t = .newline ∨ t = .dedent := by
  cases h : st.lineOpen <;> simp +contextual [LexState.endTokens, h]

theorem Indent.enter_cases {levels levels' : List Indent} {indent : Indent} {tokens : List Token}
    (h : Indent.enter levels indent = .ok (tokens, levels')) :
    ∀ t ∈ tokens, t = .indent ∨ t = .dedent := by
  unfold Indent.enter at h
  grind

theorem Numeral.isLayout_of_token {n : Numeral} {token : Token} (h : n.token = .ok token) :
    token.isLayout = false := by
  unfold Numeral.token at h
  grind [Token.isLayout]

theorem isLayout_of_scanToken {c : Char} {rest : List Char} {s : Scanned Token}
    (h : scanToken c rest = .ok s) : s.value.isLayout = false := by
  unfold scanToken at h
  split at h
  · split at h
    · cases h; rfl
    · cases h
  · split at h
    · obtain ⟨token, htoken, rfl⟩ := ok_of_map_eq_ok h
      exact Numeral.isLayout_of_token htoken
    · split at h
      · cases h
        unfold scanWord wordToken
        dsimp only
        split <;> rfl
      · split at h
        · cases h; rfl
        · cases h

/-- The last of the lexemes `ls`, and no other, is `endOfFile`. -/
def EndsOnce (ls : List Lexeme) : Prop :=
  ∃ init last, ls = init ++ [last] ∧ last.token = .endOfFile ∧
    ∀ l ∈ init, l.token.isEndOfFile = false

theorem EndsOnce.append {ms : List Lexeme} (hls : ∀ l ∈ ls, l.token.isEndOfFile = false)
    (h : EndsOnce ms) : EndsOnce (ls ++ ms) := by
  obtain ⟨init, last, rfl, hlast, hinit⟩ := h
  refine ⟨ls ++ init, last, (List.append_assoc ..).symm, hlast, ?_⟩
  exact fun l hl => (List.mem_append.1 hl).elim (hls l) (hinit l)

theorem EndsOnce.cons {l : Lexeme} (hl : l.token.isEndOfFile = false) (h : EndsOnce ls) :
    EndsOnce (l :: ls) := by
  have hfirst : ∀ l' ∈ [l], l'.token.isEndOfFile = false := by simpa using hl
  exact h.append hfirst

theorem LexState.finish_endsOnce (st : LexState) : EndsOnce st.finish := by
  refine ⟨st.endTokens.map (⟨·, st.loc, []⟩), ⟨.endOfFile, st.loc, []⟩, st.finish_eq, rfl, ?_⟩
  simp only [List.mem_map, forall_exists_index, and_imp, forall_apply_eq_imp_iff₂]
  intro t ht
  rcases st.endTokens_cases t ht with rfl | rfl <;> rfl

/-- The lexemes `ls` of a text end with its end. -/
theorem Lexed.endsOnce (h : Lexed tabStop fresh st cs ls) : EndsOnce ls := by
  induction h with
  | @bareEnd st _ blanks => exact (st.skip blanks).finish_endsOnce
  | bareLine margin bare more ih => exact ih
  | margin margin bare entered more ih =>
    refine ih.append ?_
    simp only [List.mem_map, forall_exists_index, and_imp, forall_apply_eq_imp_iff₂]
    intro t ht
    rcases Indent.enter_cases entered t ht with rfl | rfl <;> rfl
  | @finished st _ blanks => exact (st.skip blanks).finish_endsOnce
  | lineEnd gap outside more ih => exact ih.cons rfl
  | joined gap inside more ih => exact ih
  | token gap visible scanned more ih =>
    have hlayout := isLayout_of_scanToken scanned
    refine ih.cons ?_
    unfold Token.isLayout at hlayout
    unfold Token.isEndOfFile
    split at hlayout <;> simp_all

/-! ## Where lexemes stand -/

/-- In a text that starts at `loc`, the lexemes stand one after the other, with gaps between them.
-/
inductive Laid : Location → List Char → List Lexeme → Prop
  | done {loc : Location} {cs : List Char} : Laid loc cs []
  | next {loc : Location} {gap text rest : List Char} {token : Token} {ls : List Lexeme}
      (more : Laid ((loc.after gap).after text) rest ls) :
      Laid loc (gap ++ (text ++ rest)) (⟨token, loc.after gap, text⟩ :: ls)

variable {loc : Location} {skipped text rest : List Char}

/-- Lexemes also stand in a text with the characters `skipped` in front. -/
theorem Laid.skip (h : Laid (loc.after skipped) rest ls) : Laid loc (skipped ++ rest) ls := by
  cases h with
  | done => exact .done
  | @next _ gap text rest token ls more =>
    have hplace := Location.after_append loc skipped gap
    rw [← hplace] at more ⊢
    rw [← List.append_assoc]
    exact .next more

/-- A lexeme with its `text` right here, at `loc`. -/
theorem Laid.here {token : Token} (more : Laid (loc.after text) rest ls) :
    Laid loc (text ++ rest) (⟨token, loc, text⟩ :: ls) := by
  have hgap : Laid loc ([] ++ (text ++ rest)) (⟨token, loc.after [], text⟩ :: ls) := .next more
  exact hgap

/-- Layout `tokens` take no characters. -/
theorem Laid.layout (tokens : List Token) (more : Laid loc rest ls) :
    Laid loc rest (tokens.map (⟨·, loc, []⟩) ++ ls) := by
  induction tokens with
  | nil => exact more
  | cons token tokens ih =>
    have hempty : Laid loc ([] ++ rest) (⟨token, loc, []⟩ :: (tokens.map (⟨·, loc, []⟩) ++ ls)) :=
      .here ih
    exact hempty

theorem LexState.finish_laid (st : LexState) : Laid st.loc [] st.finish := by
  have hend : Laid st.loc ([] ++ []) [⟨.endOfFile, st.loc, []⟩] := .here .done
  rw [st.finish_eq]
  exact .layout st.endTokens hend

/-- What a scanner took, `text`, and what it left, `rest`, if it loses nothing. -/
theorem Scanned.split {s : Scanned α} {value : α} (all : s.all = cs) (h : s = ⟨value, text, rest⟩) :
    cs = text ++ rest := by
  rw [← all, h]
  rfl

/-- The lexemes `ls` of a text stand in it, where their `loc` says. -/
theorem Lexed.laid (h : Lexed tabStop fresh st cs ls) : Laid st.loc cs ls := by
  induction h with
  | @bareEnd st _ blanks _ margin =>
    rw [Scanned.split (Indent.scan_all ..) margin]
    exact .skip (st.skip blanks).finish_laid
  | @bareLine st _ blanks rest _ c ls margin bare more ih =>
    rw [Scanned.split (Indent.scan_all ..) margin, ← restOfLine_all (c :: rest)]
    exact .skip (.skip ih)
  | @margin st _ blanks rest _ tokens _ ls margin bare entered more ih =>
    rw [Scanned.split (Indent.scan_all ..) margin]
    exact .skip (.layout tokens ih)
  | @finished st _ blanks gap =>
    rw [Scanned.split (skipBlanks_all ..) gap]
    exact .skip (st.skip blanks).finish_laid
  | lineEnd gap outside more ih =>
    rw [Scanned.split (skipBlanks_all ..) gap]
    exact .next ih
  | @joined st _ blanks rest ls gap inside more ih =>
    rw [Scanned.split (skipBlanks_all ..) gap]
    have hline : Laid (st.skip blanks).loc (['\n'] ++ rest) ls := .skip ih
    exact .skip hline
  | token gap visible scanned more ih =>
    rw [Scanned.split (skipBlanks_all ..) gap, ← scanToken_all scanned]
    exact .next ih

/-- The lexemes `ls` of a `source` stand in it, where their `loc` says. -/
theorem lexemes_laid {source : List Char} (h : lexemesWith tabStop source = .ok ls) :
    Laid .start source ls :=
  (lexed_of_ok h).laid

end Stepper
