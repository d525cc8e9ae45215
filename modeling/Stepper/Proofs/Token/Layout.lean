import Mathlib.Data.List.Induction
import Stepper.Proofs.Token.Lexed

/-!
# Layout tokens are well formed

* `indents`, `dedents`, `openBrackets`, `lastToken?`: what can be read off the lexemes so far.
* `LayoutWellFormed`: where layout tokens stand among the lexemes of a text.
* `LexState.Counts`: the lexer's state is what can be read off the lexemes before it. Each rule of
  `Lexed` keeps that.
* `Completes`: lexemes that may come after those before them, up to the end of the text. Those the
  lexer finds do (`Lexed.completes`).
* `lexemes_layout`: the layout tokens of every text are well formed.
-/

namespace Stepper

/-- Whether the token is `indent`, which opens an indentation. -/
def Token.isIndent : Token → Bool
  | indent => true
  | _ => false

/-- Whether the token is `dedent`, which ends an indentation. -/
def Token.isDedent : Token → Bool
  | dedent => true
  | _ => false

/-- The depth of brackets after a token, from the `depth` before it: a closing bracket without an
opening one counts for nothing. -/
def Token.depthAfter (depth : Nat) : Token → Nat
  | symbol s => if s.opens then depth + 1 else if s.closes then depth - 1 else depth
  | _ => depth

/-- How many indentations the lexemes `ls` open. -/
def indents (ls : List Lexeme) : Nat :=
  ls.countP (·.token.isIndent)

/-- How many indentations the lexemes `ls` end. -/
def dedents (ls : List Lexeme) : Nat :=
  ls.countP (·.token.isDedent)

/-- The depth of brackets after the lexemes `ls`. -/
def openBrackets (ls : List Lexeme) : Nat :=
  ls.foldl (fun depth l => l.token.depthAfter depth) 0

/-- The token that comes last in `ls`. -/
def lastToken? (ls : List Lexeme) : Option Token :=
  (ls.map (·.token)).getLast?

/-- What comes after the lexemes `before` is the first token of the text or of a line. -/
def AtLineStart (before : List Lexeme) : Prop :=
  before = [] ∨ lastToken? before = some .newline

/-- The lexemes `ls` are layout tokens at `ends`, where the text ends. -/
def AtEnd (ends : Location) (ls : List Lexeme) : Prop :=
  ∀ l ∈ ls, l.token.isLayout = true ∧ l.loc = ends ∧ l.text = []

/-- The layout tokens among the lexemes `ls` of a text that ends at `ends` are well formed. -/
structure LayoutWellFormed (ends : Location) (ls : List Lexeme) : Prop where
  /-- The last lexeme, and no other, is the end of the text. -/
  endsOnce : EndsOnce ls
  /-- From left to right, no more indentations end than were opened. -/
  nested : ∀ before, before <+: ls → dedents before ≤ indents before
  /-- All indentations end. -/
  balanced : dedents ls = indents ls
  /-- An indentation opens at the start of the text or right after the end of a line. -/
  opening : ∀ before l after, ls = before ++ l :: after → l.token = .indent →
    before = [] ∨ lastToken? before = some .newline
  /-- An indentation ends right after the end of a line or of another indentation. -/
  ending : ∀ before l after, ls = before ++ l :: after → l.token = .dedent →
    lastToken? before = some .newline ∨ lastToken? before = some .dedent
  /-- While a bracket is open there are no layout tokens, unless the text ends there. -/
  bracketed : ∀ before l after, ls = before ++ l :: after → 0 < openBrackets before →
    l.token.isLayout = true → AtEnd ends (l :: after)
  /-- If there are tokens at all, the last line ends, and then only indentations do. -/
  lastLine : ls.map (·.token) = [.endOfFile] ∨
    ∃ init n, ls.map (·.token) = init ++ .newline :: (List.replicate n .dedent ++ [.endOfFile])

variable {ends loc : Location} {text : List Char} {t : Token} {before ls : List Lexeme}
  {l : Lexeme} {n : Nat}

/-! ## What can be read off some lexemes -/

@[simp] theorem indents_nil : indents [] = 0 := rfl

@[simp] theorem dedents_nil : dedents [] = 0 := rfl

@[simp] theorem openBrackets_nil : openBrackets [] = 0 := rfl

@[simp] theorem indents_concat :
    indents (before ++ [l]) = indents before + l.token.isIndent.toNat := by
  cases h : l.token.isIndent <;> simp [indents, h]

@[simp] theorem dedents_concat :
    dedents (before ++ [l]) = dedents before + l.token.isDedent.toNat := by
  cases h : l.token.isDedent <;> simp [dedents, h]

@[simp] theorem openBrackets_concat :
    openBrackets (before ++ [l]) = l.token.depthAfter (openBrackets before) := by
  simp [openBrackets]

@[simp] theorem lastToken?_concat : lastToken? (before ++ [l]) = some l.token := by
  simp [lastToken?]

theorem Token.isIndent_of_text (h : t.isLayout = false) : t.isIndent = false := by
  cases t <;> first | rfl | cases h

theorem Token.isDedent_of_text (h : t.isLayout = false) : t.isDedent = false := by
  cases t <;> first | rfl | cases h

/-- The lexemes that end `n` indentations at `loc`. -/
def closings (n : Nat) (loc : Location) : List Lexeme :=
  List.replicate n ⟨.dedent, loc, []⟩

@[simp] theorem closings_zero : closings 0 loc = [] := rfl

theorem closings_succ : closings (n + 1) loc = ⟨.dedent, loc, []⟩ :: closings n loc := rfl

theorem append_closings_succ :
    before ++ closings (n + 1) loc = (before ++ [⟨.dedent, loc, []⟩]) ++ closings n loc := by
  simp [closings_succ]

theorem indents_closings : indents (before ++ closings n loc) = indents before := by
  simp [indents, closings, List.countP_replicate, Token.isIndent]

theorem dedents_closings : dedents (before ++ closings n loc) = dedents before + n := by
  simp [dedents, closings, List.countP_replicate, Token.isDedent]

theorem openBrackets_closings :
    openBrackets (before ++ closings n loc) = openBrackets before := by
  induction n generalizing before with
  | zero => simp
  | succ n ih => rw [append_closings_succ, ih, openBrackets_concat]; rfl

theorem not_atLineStart_concat (h : l.token ≠ .newline) : ¬ AtLineStart (before ++ [l]) := by
  simp [AtLineStart, h]

theorem not_atLineStart_closings : ¬ AtLineStart (before ++ closings (n + 1) loc) := by
  rw [closings, List.replicate_succ', ← List.append_assoc]
  exact not_atLineStart_concat (by simp)

/-! ## Lexemes that complete others -/

/-- The lexeme `l` may come between `before` and `after` in a text that ends at `ends`. -/
structure Placed (ends : Location) (before : List Lexeme) (l : Lexeme) (after : List Lexeme) :
    Prop where
  opening : l.token = .indent → AtLineStart before
  ending : l.token = .dedent → dedents before < indents before ∧
    (lastToken? before = some .newline ∨ lastToken? before = some .dedent)
  bracketed : l.token.isLayout = true → openBrackets before = 0 ∨ AtEnd ends (l :: after)

/-- A lexeme `l` that is not layout may come anywhere. -/
theorem Placed.ofText (h : l.token.isLayout = false) : Placed ends before l ls where
  opening := by
    intro htoken
    rw [htoken] at h
    cases h
  ending := by
    intro htoken
    rw [htoken] at h
    cases h
  bracketed := by
    intro hlayout
    rw [hlayout] at h
    cases h

theorem Placed.newline
    (hplace : openBrackets before = 0 ∨ AtEnd ends (⟨.newline, loc, text⟩ :: ls)) :
    Placed ends before ⟨.newline, loc, text⟩ ls :=
  ⟨by simp, by simp, fun _ => hplace⟩

theorem Placed.indent (hline : AtLineStart before) (hbrackets : openBrackets before = 0) :
    Placed ends before ⟨.indent, loc, text⟩ ls :=
  ⟨fun _ => hline, by simp, fun _ => .inl hbrackets⟩

theorem Placed.dedent (hopen : dedents before < indents before)
    (hlast : lastToken? before = some .newline ∨ lastToken? before = some .dedent)
    (hplace : openBrackets before = 0 ∨ AtEnd ends (⟨.dedent, loc, text⟩ :: ls)) :
    Placed ends before ⟨.dedent, loc, text⟩ ls :=
  ⟨by simp, fun _ => ⟨hopen, hlast⟩, fun _ => hplace⟩

theorem Placed.endOfFile : Placed ends before ⟨.endOfFile, ends, []⟩ [] :=
  ⟨by simp, by simp, fun _ => .inr (by simp [AtEnd, Token.isLayout])⟩

/-- There are no lexemes, or the last line ends and then `n` indentations do. -/
def LinesEnd (before : List Lexeme) : Prop :=
  before = [] ∨ ∃ init n, before.map (·.token) = init ++ .newline :: List.replicate n .dedent

/-- After the lexemes `before`, those of `ls` may come in a text that ends at `ends`, and are all
that is left. -/
inductive Completes (ends : Location) : List Lexeme → List Lexeme → Prop
  | done {before : List Lexeme} (balanced : dedents before = indents before)
      (lines : LinesEnd before) : Completes ends before [⟨.endOfFile, ends, []⟩]
  | next {before : List Lexeme} {l : Lexeme} {ls : List Lexeme} (here : Placed ends before l ls)
      (more : Completes ends (before ++ [l]) ls) : Completes ends before (l :: ls)

/-- Every lexeme `l` of those that complete `before` is in its place. -/
theorem Completes.placed (h : Completes ends before ls) {mid after : List Lexeme}
    (hsplit : ls = mid ++ l :: after) : Placed ends (before ++ mid) l after := by
  induction h generalizing mid with
  | @done before balanced lines =>
    obtain ⟨rfl, hrest⟩ | ⟨_, rfl, hnil⟩ := List.cons_eq_append_iff.1 hsplit
    · obtain ⟨rfl, rfl⟩ := List.cons.inj hrest
      exact .endOfFile
    · simp at hnil
  | @next before first ls here more ih =>
    obtain ⟨rfl, hrest⟩ | ⟨mid, rfl, hmore⟩ := List.cons_eq_append_iff.1 hsplit
    · obtain ⟨rfl, rfl⟩ := List.cons.inj hrest
      simpa using here
    · simpa using ih hmore

/-- What the lexemes before `endOfFile` come to: indentations are balanced, and the last line
ends. -/
theorem Completes.atLast (h : Completes ends before ls) :
    ∃ init, ls = init ++ [⟨.endOfFile, ends, []⟩] ∧
      dedents (before ++ init) = indents (before ++ init) ∧ LinesEnd (before ++ init) := by
  induction h with
  | done balanced lines => exact ⟨[], rfl, by simpa using balanced, by simpa using lines⟩
  | @next before l ls here more ih =>
    obtain ⟨init, rfl, hbalanced, hlines⟩ := ih
    exact ⟨l :: init, rfl, by simpa using hbalanced, by simpa using hlines⟩

/-- The lexemes `ls` of a whole text have well-formed layout if they complete no lexemes at all. -/
theorem Completes.layout (h : Completes ends [] ls) (hends : EndsOnce ls) :
    LayoutWellFormed ends ls where
  endsOnce := hends
  nested := by
    intro before hprefix
    -- Lexeme by lexeme: a `dedent` is only placed where fewer have ended than were opened.
    induction before using List.reverseRecOn with
    | nil => exact Nat.le_refl 0
    | append_singleton before l ih =>
      obtain ⟨after, rfl⟩ := hprefix
      have hle := ih ⟨l :: after, by simp⟩
      have hplaced := h.placed (List.append_cons before l after).symm
      rw [indents_concat, dedents_concat]
      cases hdedent : l.token.isDedent with
      | false => exact Nat.le_add_right_of_le hle
      | true =>
        have htoken : l.token = .dedent := by
          unfold Token.isDedent at hdedent
          split at hdedent <;> simp_all
        exact Nat.le_add_right_of_le (hplaced.ending htoken).1
  balanced := by
    obtain ⟨init, rfl, hbalanced, -⟩ := h.atLast
    simpa [Token.isIndent, Token.isDedent] using hbalanced
  opening := fun before l after hsplit => (h.placed hsplit).opening
  ending := fun before l after hsplit htoken => ((h.placed hsplit).ending htoken).2
  bracketed := by
    intro before l after hsplit hopen hlayout
    exact ((h.placed hsplit).bracketed hlayout).resolve_left (Nat.ne_of_gt hopen)
  lastLine := by
    obtain ⟨init, rfl, -, rfl | ⟨tokens, n, htokens⟩⟩ := h.atLast
    · exact .inl rfl
    · refine .inr ⟨tokens, n, ?_⟩
      rw [List.nil_append] at htokens
      simp [htokens]

theorem AtEnd.of_cons (h : AtEnd ends (l :: ls)) : AtEnd ends ls :=
  (List.forall_mem_cons.1 h).2

/-- Of the indentations that are open, `n` may end at the start of a line. -/
theorem Completes.closeLevels (hline : AtLineStart before ∨ lastToken? before = some .dedent)
    (hopen : dedents before + n ≤ indents before)
    (hplace : openBrackets before = 0 ∨ AtEnd ends (closings n loc ++ ls))
    (more : Completes ends (before ++ closings n loc) ls) :
    Completes ends before (closings n loc ++ ls) := by
  induction n generalizing before with
  | zero => simpa using more
  | succ n ih =>
    -- all but the first come after an indentation that ends
    have hlt : dedents before < indents before := by omega
    have hlast : lastToken? before = some .newline ∨ lastToken? before = some .dedent := by
      rcases hline with (rfl | hnewline) | hdedent
      · -- an indentation is open, so this is not the start of the text
        simp at hlt
      · exact .inl hnewline
      · exact .inr hdedent
    have hmore : dedents (before ++ [⟨.dedent, loc, []⟩]) + n ≤
        indents (before ++ [⟨.dedent, loc, []⟩]) := by
      simp only [dedents_concat, indents_concat, Token.isDedent, Token.isIndent, Bool.toNat_true,
        Bool.toNat_false]
      omega
    have hrest : openBrackets (before ++ [⟨.dedent, loc, []⟩]) = 0 ∨
        AtEnd ends (closings n loc ++ ls) :=
      hplace.imp (fun h => by simpa [Token.depthAfter] using h) AtEnd.of_cons
    refine .next (.dedent hlt hlast hplace) (ih ?_ hmore hrest ?_)
    · exact .inr (by simp)
    · rwa [append_closings_succ] at more

/-- At the start of a line the `n` indentations that are open may end, and then the text. -/
theorem Completes.atLineStart (hline : AtLineStart before)
    (hopen : dedents before + n = indents before) :
    Completes ends before (closings n ends ++ [⟨.endOfFile, ends, []⟩]) := by
  have hend : AtEnd ends (closings n ends ++ [⟨.endOfFile, ends, []⟩]) := by
    simp [AtEnd, closings, Token.isLayout, or_imp, forall_and]
  refine .closeLevels (.inl hline) (Nat.le_of_eq hopen) (.inr hend) (.done ?_ ?_)
  · rw [dedents_closings, indents_closings, hopen]
  · rcases hline with rfl | hnewline
    · obtain rfl : n = 0 := by simpa using hopen
      exact .inl rfl
    · obtain ⟨init, hinit⟩ := List.getLast?_eq_some_iff.1 hnewline
      exact .inr ⟨init, n, by simp [hinit, closings]⟩

/-! ## The state of the lexer -/

theorem LexState.depthAfter_eq (st : LexState) (t : Token) :
    st.depthAfter t = t.depthAfter st.depth := by
  cases t <;> rfl

/-- The state `st` is what can be read off the lexemes `before`. Of a line whose margin is still to
come, `fresh` tells that it starts. -/
structure LexState.Counts (fresh : Bool) (st : LexState) (before : List Lexeme) : Prop where
  levels : dedents before + st.levels.length = indents before
  depth : st.depth = openBrackets before
  line : st.lineOpen = false ↔ AtLineStart before
  start : fresh = true → AtLineStart before ∧ openBrackets before = 0

namespace LexState.Counts

variable {fresh : Bool} {st : LexState}

theorem initial : LexState.start.Counts true [] :=
  ⟨rfl, rfl, iff_of_true rfl (.inl rfl), fun _ => ⟨.inl rfl, rfl⟩⟩

theorem skip (h : st.Counts fresh before) (text : List Char) :
    (st.skip text).Counts fresh before :=
  ⟨h.levels, h.depth, h.line, h.start⟩

theorem token {s : Scanned Token} (h : st.Counts fresh before) (htext : s.value.isLayout = false) :
    (st.afterToken s).Counts false (before ++ [⟨s.value, loc, s.text⟩]) where
  levels := by
    simpa [afterToken, Token.isIndent_of_text htext, Token.isDedent_of_text htext] using h.levels
  depth := by
    simp [afterToken, depthAfter_eq, h.depth]
  line := by
    have hne : s.value ≠ .newline := by
      intro heq
      simp [heq, Token.isLayout] at htext
    exact iff_of_false (by simp [afterToken]) (not_atLineStart_concat hne)
  start := by simp

theorem endLine (h : st.Counts fresh before) (outside : st.depth = 0) :
    st.endLine.Counts true (before ++ [⟨.newline, loc, text⟩]) where
  levels := by
    rw [dedents_concat, indents_concat]
    exact h.levels
  depth := by
    rw [openBrackets_concat]
    exact h.depth
  line := iff_of_true rfl (.inr (by simp))
  start := fun _ => ⟨.inr (by simp), by simpa [Token.depthAfter, h.depth] using outside⟩

theorem openLevel (h : st.Counts true before) (level : Indent) :
    (st.enter [.indent] (level :: st.levels)).Counts false (before ++ [⟨.indent, loc, []⟩]) where
  levels := by
    have hlevels := h.levels
    simp only [enter, dedents_concat, indents_concat, Token.isIndent, Token.isDedent,
      Bool.toNat_true, Bool.toNat_false, List.length_cons]
    omega
  depth := by
    rw [openBrackets_concat]
    exact h.depth
  line := iff_of_false (by simp [enter]) (not_atLineStart_concat (by simp))
  start := by simp

theorem closeLevels {outer : List Indent} (h : st.Counts true before)
    (hlength : st.levels.length = n + outer.length) :
    (st.enter (List.replicate n .dedent) outer).Counts false (before ++ closings n loc) where
  levels := by
    rw [dedents_closings, indents_closings, Nat.add_assoc, enter, ← hlength]
    exact h.levels
  depth := by
    rw [openBrackets_closings]
    exact h.depth
  line := by
    cases n with
    | zero => simpa [enter] using h.line
    | succ n =>
      exact iff_of_false (by simp [enter, List.replicate_succ]) not_atLineStart_closings
  start := by simp

/-- The lexemes of `st.finish`, at the end of the text, complete those before it. -/
theorem finish (h : st.Counts fresh before) : Completes st.loc before st.finish := by
  have hfinish : st.finish = (if st.lineOpen then [⟨.newline, st.loc, []⟩] else []) ++
      (closings st.levels.length st.loc ++ [⟨.endOfFile, st.loc, []⟩]) := by
    simp [LexState.finish, closings, List.map_const']
  rw [hfinish]
  cases hopen : st.lineOpen with
  | false => exact .atLineStart (h.line.1 hopen) h.levels
  | true =>
    have hend : AtEnd st.loc (⟨.newline, st.loc, []⟩ ::
        (closings st.levels.length st.loc ++ [⟨.endOfFile, st.loc, []⟩])) := by
      simp [AtEnd, closings, Token.isLayout, or_imp, forall_and]
    refine .next (.newline (.inr hend)) (.atLineStart (.inr (by simp)) ?_)
    simpa [Token.isDedent, Token.isIndent] using h.levels

end LexState.Counts

/-- A margin opens one indentation or closes `n` of them. -/
theorem Indent.enter_eq {levels levels' : List Indent} {indent : Indent} {tokens : List Token}
    (h : Indent.enter levels indent = .ok (tokens, levels')) :
    (tokens = [.indent] ∧ levels' = indent :: levels) ∨
      ∃ n, tokens = List.replicate n .dedent ∧ levels.length = n + levels'.length := by
  unfold Indent.enter at h
  dsimp only at h
  split at h
  · split at h
    · cases h
    · cases h
      exact .inl ⟨rfl, rfl⟩
  · split at h
    · cases h
    · split at h
      · cases h
      · cases h
        refine .inr ⟨_, List.map_const', ?_⟩
        rw [← List.length_append, List.takeWhile_append_dropWhile]

variable {tabStop : Nat} {fresh : Bool} {st : LexState} {cs : List Char}

/-- The lexemes `ls` of what remains of a text complete those before it. The induction is along the
rules of `Lexed`, with the state counted off `before`. -/
theorem Lexed.completes (h : Lexed tabStop fresh st cs ls) (hst : st.Counts fresh before) :
    Completes (st.loc.after cs) before ls := by
  -- each rule adds its lexemes to those counted, and leaves the place where the text ends
  induction h generalizing before with
  | @bareEnd st _ blanks _ margin =>
    rw [Scanned.split (Indent.scan_all ..) margin, List.append_nil]
    exact (hst.skip blanks).finish
  | @bareLine st _ blanks rest _ c ls margin bare more ih =>
    rw [Scanned.split (Indent.scan_all ..) margin, ← restOfLine_all (c :: rest),
      Location.after_append, Scanned.all, Location.after_append]
    exact ih ((hst.skip blanks).skip _)
  | @margin st _ blanks rest indent tokens levels ls margin bare entered more ih =>
    rw [Scanned.split (Indent.scan_all ..) margin, Location.after_append]
    obtain ⟨hline, hbrackets⟩ := hst.start rfl
    rcases Indent.enter_eq entered with ⟨rfl, rfl⟩ | ⟨n, rfl, hlength⟩
    · exact .next (.indent hline hbrackets) (ih ((hst.skip blanks).openLevel indent))
    · have hopen : dedents before + n ≤ indents before := by
        have hlevels := hst.levels
        omega
      rw [List.map_replicate]
      exact .closeLevels (.inl hline) hopen (.inl hbrackets)
        (ih ((hst.skip blanks).closeLevels hlength))
  | @finished st _ blanks gap =>
    rw [Scanned.split (skipBlanks_all ..) gap, List.append_nil]
    exact (hst.skip blanks).finish
  | @lineEnd st _ blanks rest ls gap outside more ih =>
    rw [Scanned.split (skipBlanks_all ..) gap, Location.after_append]
    have hbrackets : openBrackets before = 0 := hst.depth ▸ outside
    exact .next (.newline (.inl hbrackets)) (ih ((hst.skip blanks).endLine outside))
  | @joined st _ blanks rest ls gap inside more ih =>
    rw [Scanned.split (skipBlanks_all ..) gap, Location.after_append]
    exact ih ((hst.skip blanks).skip ['\n'])
  | @token st _ blanks rest c s ls gap visible scanned more ih =>
    rw [Scanned.split (skipBlanks_all ..) gap, Location.after_append, ← scanToken_all scanned,
      Scanned.all, Location.after_append]
    have htext := isLayout_of_scanToken scanned
    exact .next (.ofText htext) (ih ((hst.skip blanks).token htext))

/-- The layout tokens of every `source` with lexemes are well formed. -/
theorem lexemes_layout {source : List Char} (h : lexemes source = .ok ls) :
    LayoutWellFormed (Location.start.after source) ls := by
  have hlexed := lexed_of_ok h
  exact (hlexed.completes .initial).layout hlexed.endsOnce

/-- A block with a line that goes on within brackets, and a bracket that is never closed. -/
theorem lexemes_layout_block :
    ∃ ls, lexemes "if a:\n  b(\nc)\n  d(\n".toList = .ok ls ∧
      ls.map (·.token) =
        [.keyword .ifWord, .name "a", .symbol .colon, .newline, .indent, .name "b",
          .symbol .leftParen, .name "c", .symbol .rightParen, .newline, .name "d",
          .symbol .leftParen, .newline, .dedent, .endOfFile] ∧
      LayoutWellFormed ⟨5, 1⟩ ls := by
  have htokens : (lexemes "if a:\n  b(\nc)\n  d(\n".toList).map (·.map (·.token)) =
      .ok [.keyword .ifWord, .name "a", .symbol .colon, .newline, .indent, .name "b",
        .symbol .leftParen, .name "c", .symbol .rightParen, .newline, .name "d",
        .symbol .leftParen, .newline, .dedent, .endOfFile] := by cbv
  obtain ⟨ls, hlex, hls⟩ := ok_of_map_eq_ok htokens
  exact ⟨ls, hlex, hls, lexemes_layout hlex⟩

end Stepper
