import Stepper.Proofs.Stmt.ReadFrom
import Stepper.Proofs.Token.Layout
import Stepper.Proofs.Token.ProgramText

/-!
# Blocks hold statements

* `lexemes_hasHollow`: without a backslash in the text no indentation is hollow. A line that is
  joined with empty ones right after its margin opens one without a token in it.
* `Program.blocks_nonempty`: where no indentation is hollow, no block of a program is empty.
* `Program.block_empty`: a program with a hollow indentation, and with an empty block.
-/

namespace Stepper

variable {tabStop : Nat} {fresh : Bool} {st : LexState} {c : Char} {cs rest : List Char}
  {ls : List Lexeme}

theorem hasHollow_append {before : List Lexeme}
    (h : ∀ l ∈ before, Parse.isIndent l.token = false) :
    hasHollow (before ++ ls) = hasHollow ls := by
  induction before with
  | nil => rfl
  | cons l before ih =>
    obtain ⟨hl, hbefore⟩ := List.forall_mem_cons.1 h
    simp [hasHollow, hl, ih hbefore]

theorem isIndent_of_text {t : Token} (h : t.isLayout = false) : Parse.isIndent t = false := by
  cases t <;> first | rfl | cases h

theorem LexState.finish_hasHollow (st : LexState) : hasHollow st.finish = false := by
  have hnone : ∀ l ∈ st.finish, Parse.isIndent l.token = false := by
    rw [st.finish_eq]
    simp only [List.mem_append, List.mem_map, List.mem_singleton]
    rintro l (⟨t, ht, rfl⟩ | rfl)
    · rcases st.endTokens_cases t ht with rfl | rfl <;> rfl
    · rfl
  rw [← List.append_nil st.finish, hasHollow_append hnone]
  rfl

/-- A line that is not bare begins with a visible character after its margin, or with `\`. -/
theorem visible_of_margin {blanks : List Char} {indent : Indent}
    (margin : Indent.scan tabStop .none cs = ⟨indent, blanks, rest⟩)
    (bare : isBareLine rest = false)
    (hrest : '\\' ∉ rest) : ∃ c more, rest = c :: more ∧ isVisible c = true := by
  have hmargin : rest = cs.dropWhile isMargin := by
    rw [← Indent.scan_rest tabStop .none, margin]
  cases rest with
  | nil => cases bare
  | cons c more =>
    refine ⟨c, more, rfl, ?_⟩
    have hc : isMargin c = false := by
      have hhead := List.head?_dropWhile_not isMargin cs
      rw [← hmargin] at hhead
      simpa using hhead
    have hbackslash : c ≠ '\\' := fun h => hrest (h ▸ List.mem_cons_self)
    simp only [isBareLine, isMargin, Bool.or_eq_false_iff, decide_eq_false_iff_not] at bare hc
    simp [isVisible, bare, hc, hbackslash]

/-- A visible character `c` begins a token. -/
theorem Lexed.ahead_of_visible (h : Lexed tabStop false st (c :: cs) ls)
    (hc : isVisible c = true) : (ahead ls).token.isLayout = false := by
  have hgap := skipBlanks_visible hc cs
  cases h with
  | finished gap => rw [hgap] at gap; cases gap
  | lineEnd gap => rw [hgap] at gap; cases gap; cases hc
  | joined gap => rw [hgap] at gap; cases gap; cases hc
  | token gap visible scanned more => exact isLayout_of_scanToken scanned

/-- An indentation before `ls` with a token in its first line does not end at once. -/
theorem endsAtOnce_of_text (h : (ahead ls).token.isLayout = false) : endsAtOnce ls = false := by
  cases ls with
  | nil => cases h
  | cons l ls =>
    rw [ahead_cons] at h
    have hbreak : l.token.isNewline = false := by
      cases hl : l.token <;> first | rfl | (rw [hl] at h; cases h)
    rw [endsAtOnce, List.dropWhile_cons_of_neg (by simp [hbreak]), ahead_cons]
    cases hl : l.token <;> first | rfl | (rw [hl] at h; cases h)

/-- In a text `cs` without `\` the line that opens an indentation has a token in it. -/
theorem Lexed.hasHollow_eq_false (h : Lexed tabStop fresh st cs ls) (hcs : '\\' ∉ cs) :
    hasHollow ls = false := by
  have hlater {seen rest : List Char} {cs : List Char} (hsplit : cs = seen ++ rest)
      (hcs : '\\' ∉ cs) : '\\' ∉ rest :=
    fun hmem => hcs (hsplit ▸ List.mem_append_right seen hmem)
  induction h with
  | bareEnd margin => exact LexState.finish_hasHollow _
  | @bareLine _ _ _ rest _ c _ margin bare more ih =>
    have hline := hlater (Scanned.split (Indent.scan_all ..) margin) hcs
    exact ih (hlater (restOfLine_all (c :: rest)).symm hline)
  | @margin st _ blanks rest _ tokens levels ls margin bare entered more ih =>
    have hrest := hlater (Scanned.split (Indent.scan_all ..) margin) hcs
    rcases Indent.enter_eq entered with ⟨rfl, -⟩ | ⟨n, rfl, -⟩
    · obtain ⟨c, rest, rfl, hc⟩ := visible_of_margin margin bare hrest
      have hfilled : endsAtOnce ls = false := endsAtOnce_of_text (more.ahead_of_visible hc)
      simp [hasHollow, hfilled, ih hrest]
    · rw [hasHollow_append, ih hrest]
      simp only [List.mem_map, forall_exists_index, and_imp, forall_apply_eq_imp_iff₂]
      intro t ht
      rw [List.eq_of_mem_replicate ht]
      rfl
  | finished gap => exact LexState.finish_hasHollow _
  | lineEnd gap outside more ih =>
    have hline := hlater (Scanned.split (skipBlanks_all ..) gap) hcs
    simpa [hasHollow, Parse.isIndent] using ih (hlater List.singleton_append.symm hline)
  | joined gap inside more ih =>
    have hline := hlater (Scanned.split (skipBlanks_all ..) gap) hcs
    exact ih (hlater List.singleton_append.symm hline)
  | token gap visible scanned more ih =>
    have htoken := hlater (Scanned.split (skipBlanks_all ..) gap) hcs
    have hmore := ih (hlater (scanToken_all scanned).symm htoken)
    simp [hasHollow, isIndent_of_text (isLayout_of_scanToken scanned), hmore]

/-- In a `source` without `\` no indentation is hollow. -/
theorem lexemes_hasHollow {source : List Char} (h : lexemes source = .ok ls)
    (hsource : '\\' ∉ source) : hasHollow ls = false :=
  (lexed_of_ok h).hasHollow_eq_false hsource

/-! ## Blocks -/

/-- Where no indentation is hollow (`hasHollow ls = false`), all blocks of `p` hold statements. -/
theorem Program.blocks_nonempty {source : String} {p : Program} (h : ofSource source = .ok p)
    (hlex : lexemes source.toList = .ok ls) (hfilled : hasHollow ls = false)
    {around : List Stmt} {s : Stmt} (hs : Stands p.body around s) :
    ∀ block ∈ s.blocks, block ≠ [] := by
  obtain ⟨ls', hlex', hread⟩ := ofSource_readFrom h
  obtain rfl : ls' = ls := Except.ok.inj (hlex'.symm.trans hlex)
  rintro block hblock rfl
  have hhollow := (hread around s hs).hollow hblock
  rw [hfilled] at hhollow
  cases hhollow

/-- A conditional with the one line `y` in its block. -/
theorem Program.blocks_nonempty_conditional :
    ∃ p s, ofSource "if x:\n  y\n" = .ok p ∧ Stands p.body [] s ∧ s.blocks.length = 1 ∧
      ∀ block ∈ s.blocks, block ≠ [] := by
  let s : Stmt := .conditional [⟨.name "x" ⟨1, 4⟩, [.expr (.name "y" ⟨2, 3⟩) ⟨2, 3⟩], ⟨1, 1⟩⟩] none
    ⟨1, 1⟩
  have hsource : ofSource "if x:\n  y\n" =
      .ok ⟨[.conditional [⟨.name "x" ⟨1, 4⟩, [.expr (.name "y" ⟨2, 3⟩) ⟨2, 3⟩], ⟨1, 1⟩⟩] none
        ⟨1, 1⟩], ["if x:", "  y"]⟩ := by
    rw [ofSource_of_lexemes (by cbv)]
    rfl
  have hs : Stands [s] [] s := .top (List.mem_singleton_self s)
  obtain ⟨ls, -, hlex, -⟩ := exists_of_ofSource hsource
  have hfilled : hasHollow ls = false := lexemes_hasHollow hlex (by decide)
  exact ⟨_, s, hsource, hs, rfl, blocks_nonempty hsource hlex hfilled hs⟩

/-- A line of blanks that is joined with an empty one by `\` opens an indentation without a token in
it, and the program has an empty block. -/
theorem Program.block_empty :
    ∃ p s, ofSource "if x:\n  \\\n\ny\n" = .ok p ∧ Stands p.body [] s ∧ [] ∈ s.blocks := by
  let s : Stmt := .conditional [⟨.name "x" ⟨1, 4⟩, [], ⟨1, 1⟩⟩] none ⟨1, 1⟩
  have hsource : ofSource "if x:\n  \\\n\ny\n" =
      .ok ⟨[.conditional [⟨.name "x" ⟨1, 4⟩, [], ⟨1, 1⟩⟩] none ⟨1, 1⟩,
        .expr (.name "y" ⟨4, 1⟩) ⟨4, 1⟩], ["if x:", "  \\", "", "y"]⟩ := by
    rw [ofSource_of_lexemes (by cbv)]
    rfl
  exact ⟨_, s, hsource, .top List.mem_cons_self, List.mem_singleton_self []⟩

end Stepper
