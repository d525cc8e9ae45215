import Stepper.Proofs.Token.ProgramText

/-!
# Line feeds and carriage returns

* `withReturns`: a text with a carriage return before every line feed.
* `joinsInString`: whether a string goes on over a line feed after a backslash. With a carriage
  return between the two it does not.
* `scanToken_withReturns` and the like: each scanner finds the same in both texts.
* `lexemes_withReturns`: so the lexemes of both texts are the same, but for the columns of line
  feeds.
-/

namespace Stepper

/-- The text with `\r` before every `\n`. -/
def withReturns : List Char → List Char
  | [] => []
  | c :: rest => if c = '\n' then '\r' :: '\n' :: withReturns rest else c :: withReturns rest

/-- Whether a string goes on over `\n` after `\`. A string ends at the latest at a `\n` without
one. -/
def joinsInString : TextMode → List Char → Bool
  | _, [] => false
  | .code, c :: rest =>
    joinsInString (if c = '#' then .comment else if c = '"' || c = '\x27' then .quoted c else .code)
      rest
  | .comment, c :: rest => joinsInString (if c = '\n' then .code else .comment) rest
  | .quoted quote, c :: rest =>
    c ≠ '\n' && joinsInString
      (if c = quote then .code else if c = '\\' then .escaped quote else .quoted quote) rest
  | .escaped quote, c :: rest => c = '\n' || joinsInString (.quoted quote) rest

/-- The scan `s` of the text with `\r` before every `\n` of what is left. -/
def Scanned.withReturns (s : Scanned α) : Scanned α :=
  { s with rest := Stepper.withReturns s.rest }

/-- What is skipped up to the end of a line or the next token: at `\n` also the `\r` before it. -/
def Scanned.gapWithReturns (s : Scanned Unit) : Scanned Unit :=
  match s.rest with
  | '\n' :: rest =>
    ⟨(), Stepper.withReturns s.text ++ ['\r'], '\n' :: Stepper.withReturns rest⟩
  | rest => ⟨(), Stepper.withReturns s.text, Stepper.withReturns rest⟩

/-- The lexeme `l` of a text with carriage returns: a `\n` that ends a line stands one column
further. -/
def Lexeme.afterReturn (l : Lexeme) : Lexeme :=
  if l.token.isNewline && l.text = ['\n'] then { l with loc := l.loc.next '\r' } else l

variable {c : Char} {cs rest text : List Char}

@[simp] theorem withReturns_nil : withReturns [] = [] := rfl

@[simp] theorem withReturns_lineFeed (rest : List Char) :
    withReturns ('\n' :: rest) = '\r' :: '\n' :: withReturns rest := rfl

theorem withReturns_cons (hc : c ≠ '\n') (rest : List Char) :
    withReturns (c :: rest) = c :: withReturns rest := by
  simp [withReturns, hc]

theorem withReturns_append (text rest : List Char) :
    withReturns (text ++ rest) = withReturns text ++ withReturns rest := by
  induction text with
  | nil => rfl
  | cons c text ih =>
    simp only [List.cons_append, withReturns]
    split
    · rw [ih, List.cons_append, List.cons_append]
    · rw [ih, List.cons_append]

theorem withReturns_eq_self (h : '\n' ∉ text) : withReturns text = text := by
  induction text with
  | nil => rfl
  | cons c text ih =>
    rw [List.mem_cons, not_or] at h
    rw [withReturns_cons (Ne.symm h.1), ih h.2]

/-- A `\r` before `\n` makes no difference to the place after it. -/
theorem Location.after_withReturns (loc : Location) (text : List Char) :
    loc.after (withReturns text) = loc.after text := by
  induction text generalizing loc with
  | nil => rfl
  | cons c text ih =>
    by_cases hc : c = '\n'
    · subst c
      simp [ih, next]
    · rw [withReturns_cons hc, after_cons, after_cons, ih]

/-! ## Gaps and margins -/

theorem Scanned.gapWithReturns_of_ne {text : List Char} (hc : c ≠ '\n') :
    (⟨(), text, c :: rest⟩ : Scanned Unit).gapWithReturns =
      ⟨(), Stepper.withReturns text, c :: Stepper.withReturns rest⟩ := by
  unfold Scanned.gapWithReturns
  split
  · next h => exact absurd (List.cons.inj h).1 hc
  · rw [withReturns_cons hc]

theorem Scanned.gapWithReturns_put {s : Scanned Unit} (hc : c ≠ '\n') :
    (s.put c).gapWithReturns = s.gapWithReturns.put c := by
  unfold Scanned.gapWithReturns
  split <;> simp_all [Scanned.put, withReturns_cons]

theorem Scanned.gapWithReturns_putLineFeed {s : Scanned Unit} :
    (s.put '\n').gapWithReturns = (s.gapWithReturns.put '\n').put '\r' := by
  unfold Scanned.gapWithReturns
  split <;> simp_all [Scanned.put]

/-- At the end of a line, the `\r` before `\n` is skipped. -/
theorem skipBlanks_return (inComment : Bool) (rest : List Char) :
    skipBlanks inComment ('\r' :: '\n' :: rest) = ⟨(), ['\r'], '\n' :: rest⟩ := by
  cases inComment with
  | true => rw [skipBlanks_inComment (by decide), skipBlanks_lineFeed]; rfl
  | false => rw [skipBlanks_gap rfl, skipBlanks_lineFeed]; rfl

theorem skipBlanks_withReturns (inComment : Bool) (h : '\r' ∉ cs) :
    skipBlanks inComment (withReturns cs) = (skipBlanks inComment cs).gapWithReturns := by
  induction inComment, cs using skipBlanks_induct with
  | nil => simp [skipBlanks, Scanned.gapWithReturns]
  | lineFeed b rest =>
    rw [withReturns_lineFeed, skipBlanks_return, skipBlanks_lineFeed]
    rfl
  | inComment c rest hc ih =>
    rw [withReturns_cons hc, skipBlanks_inComment hc, skipBlanks_inComment hc,
      Scanned.gapWithReturns_put hc, ih (mt (List.mem_cons_of_mem c) h)]
  | gap c rest hgap ih =>
    have hc : c ≠ '\n' := by rintro rfl; cases hgap
    rw [withReturns_cons hc, skipBlanks_gap hgap, skipBlanks_gap hgap,
      Scanned.gapWithReturns_put hc, ih (mt (List.mem_cons_of_mem c) h)]
  | hash rest ih =>
    rw [withReturns_cons (by decide), skipBlanks_hash, skipBlanks_hash,
      Scanned.gapWithReturns_put (by decide), ih (mt (List.mem_cons_of_mem _) h)]
  | joined rest ih =>
    have hrest : '\r' ∉ rest := by simp_all
    rw [withReturns_cons (by decide), withReturns_lineFeed, skipBlanks_joinedReturn,
      skipBlanks_joined, Scanned.gapWithReturns_put (by decide),
      Scanned.gapWithReturns_putLineFeed, ih hrest]
  | joinedReturn => simp at h
  | backslash rest hfeed hreturn =>
    rw [withReturns_cons (by decide), skipBlanks_backslash hfeed hreturn,
      Scanned.gapWithReturns_of_ne (by decide)]
    -- what follows is no line feed, so there is no carriage return before it either
    cases rest with
    | nil => exact skipBlanks_backslash (by simp) (by simp)
    | cons c rest =>
      have hc : c ≠ '\n' := fun hc => hfeed rest (hc ▸ rfl)
      have hc' : c ≠ '\r' := by
        rintro rfl
        simp at h
      rw [withReturns_cons hc]
      exact skipBlanks_backslash (by simp [hc]) (by simp [hc'])
  | visible c rest hvisible =>
    have hc : c ≠ '\n' := by rintro rfl; cases hvisible
    rw [withReturns_cons hc, skipBlanks_visible hvisible, skipBlanks_visible hvisible,
      Scanned.gapWithReturns_of_ne hc]
    rfl

theorem Indent.scan_withReturns (tabStop : Nat) (indent : Indent) (cs : List Char) :
    Indent.scan tabStop indent (withReturns cs) = (Indent.scan tabStop indent cs).withReturns := by
  fun_induction Indent.scan tabStop indent cs with
  | case1 => rfl
  | case2 indent c rest hc ih =>
    have hline : c ≠ '\n' := by rintro rfl; cases hc
    rw [withReturns_cons hline, Indent.scan, if_pos hc, ih]
    rfl
  | case3 indent c rest hc =>
    by_cases hline : c = '\n'
    · subst c
      rfl
    · rw [withReturns_cons hline, Indent.scan, if_neg hc, Scanned.withReturns,
        withReturns_cons hline]

theorem restOfLine_withReturns (cs : List Char) :
    restOfLine (withReturns cs) =
      ⟨(), withReturns (restOfLine cs).text, withReturns (restOfLine cs).rest⟩ := by
  fun_induction restOfLine cs with
  | case1 => rfl
  | case2 rest => rfl
  | case3 c rest hc ih =>
    rw [withReturns_cons hc, restOfLine, if_neg hc, ih]
    simp [Scanned.put, withReturns_cons hc]

/-! ## Tokens -/

theorem startsWithDigit_withReturns (cs : List Char) :
    startsWithDigit (withReturns cs) = startsWithDigit cs := by
  cases cs with
  | nil => rfl
  | cons c rest =>
    by_cases hc : c = '\n'
    · subst c
      rfl
    · rw [withReturns_cons hc]
      rfl

theorem scanDigits_withReturns (cs : List Char) :
    scanDigits (withReturns cs) = (scanDigits cs).withReturns := by
  fun_induction scanDigits cs with
  | case1 => rfl
  | case2 c rest hdigit ih =>
    have hc : c ≠ '\n' := by rintro rfl; cases hdigit
    rw [withReturns_cons hc, scanDigits, if_pos hdigit, ih]
    rfl
  | case3 c rest hdigit hunderscore ih =>
    have hc : c ≠ '\n' := by rintro rfl; cases hunderscore
    rw [withReturns_cons hc, scanDigits, if_neg hdigit, startsWithDigit_withReturns,
      if_pos hunderscore, ih]
    rfl
  | case4 c rest hdigit hunderscore =>
    by_cases hc : c = '\n'
    · subst c
      rfl
    · rw [withReturns_cons hc, scanDigits, if_neg hdigit, startsWithDigit_withReturns,
        if_neg hunderscore, Scanned.withReturns, withReturns_cons hc]

theorem scanFraction_withReturns (cs : List Char) :
    scanFraction (withReturns cs) = (scanFraction cs).map Scanned.withReturns := by
  cases cs with
  | nil => rfl
  | cons c rest =>
    by_cases hc : c = '\n'
    · subst c
      rfl
    · rw [withReturns_cons hc]
      by_cases hpoint : c = '.'
      · subst c
        simp only [scanFraction, scanDigits_withReturns]
        rfl
      · simp [scanFraction, hpoint]

theorem scanSign_withReturns (cs : List Char) :
    scanSign (withReturns cs) = (scanSign cs).withReturns := by
  cases cs with
  | nil => rfl
  | cons c rest =>
    by_cases hc : c = '\n'
    · subst c
      rfl
    · rw [withReturns_cons hc]
      simp only [scanSign]
      split
      · rfl
      · split
        · rfl
        · rw [Scanned.withReturns, withReturns_cons hc]

theorem scanExponent_withReturns (cs : List Char) :
    scanExponent (withReturns cs) = (scanExponent cs).map Scanned.withReturns := by
  cases cs with
  | nil => rfl
  | cons c rest =>
    by_cases hc : c = '\n'
    · subst c
      rfl
    · rw [withReturns_cons hc]
      simp only [scanExponent, scanSign_withReturns]
      simp only [Scanned.withReturns, startsWithDigit_withReturns, scanDigits_withReturns]
      split <;> rfl

theorem Scanned.optional_withReturns (found : Option (Scanned α)) (cs : List Char) :
    Scanned.optional (found.map Scanned.withReturns) (Stepper.withReturns cs) =
      (Scanned.optional found cs).withReturns := by
  cases found <;> rfl

theorem scanNumeral_withReturns (cs : List Char) :
    scanNumeral (withReturns cs) = (scanNumeral cs).withReturns := by
  have hrest {α : Type} (s : Scanned α) : s.withReturns.rest = withReturns s.rest := rfl
  simp only [scanNumeral, scanDigits_withReturns, hrest, scanFraction_withReturns,
    Scanned.optional_withReturns, scanExponent_withReturns]
  rfl

/-- A class `p` of characters without line ends goes on equally far in both texts. -/
theorem span_withReturns {p : Char → Bool} (hfeed : p '\n' = false) (hreturn : p '\r' = false)
    (cs : List Char) :
    (withReturns cs).takeWhile p = cs.takeWhile p ∧
      (withReturns cs).dropWhile p = withReturns (cs.dropWhile p) := by
  induction cs with
  | nil => exact ⟨rfl, rfl⟩
  | cons c cs ih =>
    by_cases hc : c = '\n'
    · subst c
      simp [hfeed, hreturn]
    · rw [withReturns_cons hc, List.takeWhile_cons, List.takeWhile_cons, List.dropWhile_cons,
        List.dropWhile_cons]
      split
      · exact ⟨by rw [ih.1], ih.2⟩
      · exact ⟨rfl, (withReturns_cons hc cs).symm⟩

theorem scanWord_withReturns (cs : List Char) :
    scanWord (withReturns cs) = (scanWord cs).withReturns := by
  obtain ⟨htake, hdrop⟩ := span_withReturns (p := continuesName) (by decide) (by decide) cs
  rw [scanWord, htake, hdrop]
  rfl

/-- A `text` without line ends stands at the start of both texts or of none. -/
theorem isPrefixOf_withReturns (hfeed : '\n' ∉ text) (hreturn : '\r' ∉ text) (cs : List Char) :
    text.isPrefixOf (withReturns cs) = text.isPrefixOf cs := by
  induction text generalizing cs with
  | nil => simp
  | cons d text ih =>
    rw [List.mem_cons, not_or] at hfeed hreturn
    cases cs with
    | nil => rfl
    | cons c cs =>
      by_cases hc : c = '\n'
      · subst c
        rw [withReturns_lineFeed, List.isPrefixOf_cons_cons, List.isPrefixOf_cons_cons,
          beq_eq_false_iff_ne.2 (Ne.symm hfeed.1), beq_eq_false_iff_ne.2 (Ne.symm hreturn.1)]
        rfl
      · rw [withReturns_cons hc]
        simp [List.isPrefixOf, ih hfeed.2 hreturn.2]

theorem Symbol.not_mem_text (s : Symbol) (hc : c ∈ textMarks) : c ∉ s.text.toList :=
  fun hmem => s.text_plain c hmem hc

theorem Symbol.isPrefixOf_withReturns (s : Symbol) (cs : List Char) :
    s.text.toList.isPrefixOf (withReturns cs) = s.text.toList.isPrefixOf cs :=
  Stepper.isPrefixOf_withReturns (s.not_mem_text (by decide)) (s.not_mem_text (by decide)) cs

theorem scanSymbol?_withReturns (hc : c ≠ '\n') (rest : List Char) :
    scanSymbol? c (withReturns rest) = (scanSymbol? c rest).map Scanned.withReturns := by
  simp only [scanSymbol?, ← withReturns_cons hc, Symbol.isPrefixOf_withReturns, Option.map_map]
  refine Option.map_congr fun s hs => ?_
  have hprefix := List.find?_some hs
  obtain ⟨after, hafter⟩ := List.isPrefixOf_iff_prefix.1 hprefix
  rw [Function.comp_apply, Scanned.withReturns, ← hafter, withReturns_append,
    withReturns_eq_self (s.not_mem_text (by decide)), List.drop_left, List.drop_left]

/-- A string that does not go on over `\n` is read alike in both texts. -/
theorem scanString_withReturns {quote : Char} (hfeed : quote ≠ '\n') (hquote : quote ≠ '\r')
    (hreturn : '\r' ∉ cs) (hjoins : joinsInString (.quoted quote) cs = false) :
    scanString quote (withReturns cs) = (scanString quote cs).map Scanned.withReturns := by
  fun_induction scanString quote cs with
  | case1 => rfl
  | case2 rest =>
    rw [withReturns_cons hfeed, scanString.eq_def]
    simp [Scanned.withReturns]
  | case3 rest hne =>
    -- a line feed ends the string, and so does one after a carriage return
    have hend : scanString quote ('\n' :: withReturns rest) = none := by
      rw [scanString.eq_def]
      simp [hne]
    rw [withReturns_lineFeed, scanString.eq_def]
    simp [Ne.symm hquote, hend]
  | case4 hne _ =>
    rw [withReturns_cons (by decide), scanString.eq_def]
    simp [hne]
  | case5 e rest hne _ ih =>
    have he : e ≠ '\n' ∧ joinsInString (.quoted quote) rest = false := by
      simpa [joinsInString, hne] using hjoins
    have hrest : '\r' ∉ rest := by simp_all
    rw [withReturns_cons (by decide), withReturns_cons he.1, scanString.eq_def]
    simp only [if_neg hne, ih hrest he.2, Option.map_map]
    rfl
  | case6 c rest hne hline hslash ih =>
    have hrest : joinsInString (.quoted quote) rest = false := by
      simpa [joinsInString, hne, hline, hslash] using hjoins
    rw [withReturns_cons hline, scanString.eq_def]
    simp only [if_neg hne, if_neg hline, if_neg hslash,
      ih (mt (List.mem_cons_of_mem c) hreturn) hrest, Option.map_map]
    rfl

/-- After a string that does not go on over `\n` there is code, of which the same is known. -/
theorem joinsInString_scanString {quote : Char} {s : Scanned (List Char)} (hfeed : quote ≠ '\n')
    (h : scanString quote cs = some s) (hjoins : joinsInString (.quoted quote) cs = false) :
    joinsInString .code s.rest = false := by
  fun_induction scanString quote cs generalizing s with
  | case1 => cases h
  | case2 rest =>
    cases h
    simpa [joinsInString, hfeed] using hjoins
  | case3 => cases h
  | case4 => cases h
  | case5 e rest hne _ ih =>
    obtain ⟨t, ht, rfl⟩ := Option.map_eq_some_iff.1 h
    have he : e ≠ '\n' ∧ joinsInString (.quoted quote) rest = false := by
      simpa [joinsInString, hne] using hjoins
    have hmore := ih ht he.2
    exact hmore
  | case6 c rest hne hline hslash ih =>
    obtain ⟨t, ht, rfl⟩ := Option.map_eq_some_iff.1 h
    have hmore := ih ht (by simpa [joinsInString, hne, hline, hslash] using hjoins)
    exact hmore

theorem joinsInString_plain (h : ∀ c ∈ text, c ∉ textMarks) (rest : List Char) :
    joinsInString .code (text ++ rest) = joinsInString .code rest := by
  induction text with
  | nil => rfl
  | cons c text ih =>
    rw [List.forall_mem_cons] at h
    have hc := h.1
    simp only [textMarks, List.mem_cons, List.not_mem_nil, not_or, or_false] at hc
    rw [List.cons_append, joinsInString]
    simp [hc, ih h.2]

theorem scanToken_withReturns (hc : c ≠ '\n') (hreturn : '\r' ∉ rest)
    (hjoins : joinsInString .code (c :: rest) = false) :
    scanToken c (withReturns rest) = (scanToken c rest).map Scanned.withReturns := by
  simp only [scanToken]
  split
  · rename_i hquote
    have hquoted : joinsInString (.quoted c) rest = false := by
      rcases (by simpa using hquote : c = '"' ∨ c = '\x27') with rfl | rfl <;> exact hjoins
    have hreturnQuote : c ≠ '\r' := by rintro rfl; cases hquote
    rw [scanString_withReturns hc hreturnQuote hreturn hquoted]
    cases scanString c rest <;> rfl
  · rw [startsWithDigit_withReturns, ← withReturns_cons hc]
    split
    · rw [scanNumeral_withReturns]
      change Except.map _ (scanNumeral (c :: rest)).value.token = _
      cases (scanNumeral (c :: rest)).value.token <;> rfl
    · split
      · rw [scanWord_withReturns]
        rfl
      · rw [scanSymbol?_withReturns hc]
        cases scanSymbol? c rest <;> rfl

/-- After a token `s` there is code. -/
theorem joinsInString_scanToken {s : Scanned Token} (hc : c ≠ '\n') (h : scanToken c rest = .ok s)
    (hjoins : joinsInString .code (c :: rest) = false) : joinsInString .code s.rest = false := by
  cases hquote : (c = '"' || c = '\x27' : Bool) with
  | false =>
    have hall : s.text ++ s.rest = c :: rest := scanToken_all h
    rwa [← hall, joinsInString_plain (scanToken_plain hquote h)] at hjoins
  | true =>
    obtain ⟨t, hscan, rfl⟩ := exists_of_scanToken_quote hquote h
    have hquoted : joinsInString (.quoted c) rest = false := by
      rcases (by simpa using hquote : c = '"' ∨ c = '\x27') with rfl | rfl <;> exact hjoins
    exact joinsInString_scanString hc hscan hquoted

/-! ## Whole texts -/

/-- Blanks, comments and joined lines, which `skipBlanks` passes over, hold no strings. -/
theorem joinsInString_skipBlanks (inComment : Bool) (cs : List Char) :
    joinsInString (if inComment then .comment else .code) cs =
      joinsInString .code (skipBlanks inComment cs).rest := by
  induction inComment, cs using skipBlanks_induct with
  | nil b => cases b <;> simp [joinsInString, skipBlanks]
  | lineFeed b rest => cases b <;> simp [joinsInString, skipBlanks_lineFeed]
  | inComment c rest hc ih => simpa [joinsInString, hc, skipBlanks_inComment, Scanned.put] using ih
  | gap c rest hgap ih =>
    have hplain : c ≠ '#' ∧ c ≠ '"' ∧ c ≠ '\x27' := by
      refine ⟨?_, ?_, ?_⟩ <;>
        · rintro rfl
          cases hgap
    simpa [joinsInString, hplain, skipBlanks_gap hgap, Scanned.put] using ih
  | hash rest ih => simpa [joinsInString, skipBlanks_hash, Scanned.put] using ih
  | joined rest ih => simpa [joinsInString, skipBlanks_joined, Scanned.put] using ih
  | joinedReturn rest ih => simpa [joinsInString, skipBlanks_joinedReturn, Scanned.put] using ih
  | backslash rest hfeed hreturn => rw [skipBlanks_backslash hfeed hreturn]; rfl
  | visible c rest hvisible => rw [skipBlanks_visible hvisible]; rfl

theorem joinsInString_scan (tabStop : Nat) (indent : Indent) (cs : List Char) :
    joinsInString .code (Indent.scan tabStop indent cs).rest = joinsInString .code cs := by
  fun_induction Indent.scan tabStop indent cs with
  | case1 => rfl
  | case2 indent c rest hblank ih =>
    have hplain : c ≠ '#' ∧ c ≠ '"' ∧ c ≠ '\x27' := by
      refine ⟨?_, ?_, ?_⟩ <;>
        · rintro rfl
          cases hblank
    simpa [joinsInString, hplain, Scanned.put] using ih
  | case3 => rfl

theorem joinsInString_comment (cs : List Char) :
    joinsInString .comment cs = joinsInString .code (afterLine cs) := by
  unfold afterLine
  fun_induction restOfLine cs <;> simp_all [joinsInString, Scanned.put]

/-- A bare line, of blanks and a comment, holds no strings. -/
theorem joinsInString_bareLine (hreturn : c ≠ '\r') (bare : isBareLine (c :: rest) = true) :
    joinsInString .code (afterLine (c :: rest)) = joinsInString .code (c :: rest) := by
  have hcases : c = '\n' ∨ c = '#' := by simpa [isBareLine, hreturn] using bare
  rcases hcases with rfl | rfl
  · rfl
  · exact (joinsInString_comment ('#' :: rest)).symm

/-! ## Lexemes -/

theorem Lexeme.afterReturn_layout {t : Token} (loc : Location) :
    (⟨t, loc, []⟩ : Lexeme).afterReturn = ⟨t, loc, []⟩ := by
  simp [Lexeme.afterReturn]

theorem LexState.finish_afterReturn (st : LexState) :
    st.finish.map Lexeme.afterReturn = st.finish := by
  rw [st.finish_eq]
  simp [Lexeme.afterReturn_layout]

theorem Lexeme.afterReturn_token {t : Token} (ht : t.isLayout = false) (loc : Location)
    (text : List Char) : (⟨t, loc, text⟩ : Lexeme).afterReturn = ⟨t, loc, text⟩ := by
  have hbreak : t.isNewline = false := by cases t <;> first | rfl | cases ht
  simp [Lexeme.afterReturn, hbreak]

theorem LexState.skip_withReturns (st : LexState) (text : List Char) :
    st.skip (withReturns text) = st.skip text := by
  rw [LexState.skip, Location.after_withReturns]
  rfl

theorem LexState.loc_skip_return (st : LexState) (text : List Char) :
    (st.skip (withReturns text ++ ['\r'])).loc = (st.skip text).loc.next '\r' := by
  simp [LexState.skip, Location.after_append, Location.after_withReturns]

theorem LexState.skip_return (st : LexState) (text : List Char) :
    (st.skip (withReturns text ++ ['\r'])).skip ['\n'] = (st.skip text).skip ['\n'] := by
  simp [LexState.skip, Location.after_append, Location.after_withReturns, Location.next]

variable {tabStop : Nat} {st : LexState}

/-- If `cs` has no `\r` and no strings that go on over `\n`, the lexer finds in it what it finds in
`withReturns cs`. -/
def LexesAlike (tabStop : Nat) (cs : List Char) : Prop :=
  '\r' ∉ cs → joinsInString .code cs = false → ∀ fresh st,
    lexemesFrom tabStop fresh st (withReturns cs) =
      (lexemesFrom tabStop fresh st cs).map (·.map Lexeme.afterReturn)

/-- Within a line, if all shorter texts are `LexesAlike`. -/
theorem lexemesFrom_line_withReturns
    (ih : ∀ rest, rest.length < cs.length → LexesAlike tabStop rest)
    (hreturn : '\r' ∉ cs) (hjoins : joinsInString .code cs = false) :
    lexemesFrom tabStop false st (withReturns cs) =
      (lexemesFrom tabStop false st cs).map (·.map Lexeme.afterReturn) := by
  have hall : (skipBlanks false cs).text ++ (skipBlanks false cs).rest = cs :=
    skipBlanks_all false cs
  have hcode : joinsInString .code (skipBlanks false cs).rest = false :=
    (joinsInString_skipBlanks false cs).symm.trans hjoins
  rw [lexemesFrom_eq, lexemesFrom_eq, skipBlanks_withReturns false hreturn]
  -- The gap is the same in both texts but for a `\r` at its end; what matters is what follows it.
  generalize skipBlanks false cs = blanks at hall hcode
  obtain ⟨_, text, rest⟩ := blanks
  dsimp only at hall hcode ⊢
  subst hall
  rw [List.mem_append, not_or] at hreturn
  cases rest with
  | nil =>
    change lexAfterBlanks tabStop (st.skip (withReturns text)) [] = _
    rw [LexState.skip_withReturns]
    simp [lexAfterBlanks, Except.map, LexState.finish_afterReturn]
  | cons c rest =>
    by_cases hc : c = '\n'
    · subst c
      have hrest : LexesAlike tabStop rest := ih rest (by simp; omega)
      have hmore := hrest (mt (List.mem_cons_of_mem _) hreturn.2) hcode
      have hdepth (text : List Char) : (st.skip text).depth = st.depth := rfl
      change lexAfterBlanks tabStop (st.skip (withReturns text ++ ['\r']))
        ('\n' :: withReturns rest) = _
      simp only [lexAfterBlanks, if_true, hdepth, LexState.skip_return, hmore]
      split
      · rw [Except.map_map, Except.map_map, LexState.loc_skip_return]
        rfl
      · rfl
    · rw [Scanned.gapWithReturns_of_ne hc]
      -- A token holds no line end, so it is read alike; what is left after it is shorter.
      have hscanned := scanToken_withReturns hc (mt (List.mem_cons_of_mem _) hreturn.2) hcode
      simp only [lexAfterBlanks, if_neg hc, LexState.skip_withReturns, hscanned]
      cases hscan : scanToken c rest with
      | error fault => rfl
      | ok s =>
        have hall : s.text ++ s.rest = c :: rest := scanToken_all hscan
        have hlength := scanToken_length hscan
        have hrest : LexesAlike tabStop s.rest := ih s.rest (by simp at hlength ⊢; omega)
        have hreturns : '\r' ∉ s.rest :=
          fun hmem => hreturn.2 (hall ▸ List.mem_append_right s.text hmem)
        have hmore := hrest hreturns (joinsInString_scanToken hc hscan hcode) false
          ((st.skip text).afterToken s)
        change Except.map _ (lexemesFrom tabStop false ((st.skip text).afterToken s)
          (withReturns s.rest)) = _
        dsimp only
        rw [hmore, Except.map_map, Except.map_map]
        congr 1
        funext more
        rw [Function.comp_apply, Function.comp_apply, List.map_cons,
          Lexeme.afterReturn_token (isLayout_of_scanToken hscan)]
        rfl

theorem isBareLine_withReturns (cs : List Char) : isBareLine (withReturns cs) = isBareLine cs := by
  cases cs with
  | nil => rfl
  | cons c rest =>
    by_cases hc : c = '\n'
    · subst c
      rfl
    · rw [withReturns_cons hc]
      rfl

/-- After the margin of a line, if all texts shorter than its `rest` are `LexesAlike`. -/
theorem lexAfterMargin_withReturns {indent : Indent} {rest : List Char}
    (ih : ∀ more, more.length < rest.length → LexesAlike tabStop more)
    (hreturn : '\r' ∉ rest) (hjoins : joinsInString .code rest = false) :
    lexAfterMargin tabStop st indent (withReturns rest) =
      (lexAfterMargin tabStop st indent rest).map (·.map Lexeme.afterReturn) := by
  simp only [lexAfterMargin, isBareLine_withReturns]
  split
  · rename_i bare
    cases rest with
    | nil => simp [Except.map, LexState.finish_afterReturn]
    | cons c rest =>
      have hall : (restOfLine (c :: rest)).text ++ afterLine (c :: rest) = c :: rest :=
        restOfLine_all (c :: rest)
      have hline : (restOfLine (c :: rest)).text ≠ [] := by
        unfold restOfLine
        split <;> simp [Scanned.put]
      -- A bare line is passed over with its end; what is left after it is shorter.
      have hless := Scanned.length_lt (restOfLine_all (c :: rest)) hline
      have hreturns : '\r' ∉ afterLine (c :: rest) :=
        fun hmem => hreturn (hall ▸ List.mem_append_right _ hmem)
      have hcode : joinsInString .code (afterLine (c :: rest)) = false := by
        rw [joinsInString_bareLine (fun hc => hreturn (hc ▸ List.mem_cons_self)) bare, hjoins]
      have hmore := ih _ hless hreturns hcode true (st.skip (restOfLine (c :: rest)).text)
      have hsome : (withReturns (c :: rest)).isEmpty = false := by
        unfold withReturns
        split <;> rfl
      rw [hsome, afterLine, restOfLine_withReturns]
      simp only [Bool.false_eq_true, if_false, LexState.skip_withReturns]
      exact hmore
  · cases hentered : Indent.enter st.levels indent with
    | error fault => rfl
    | ok entered =>
      obtain ⟨tokens, levels⟩ := entered
      dsimp only
      rw [lexemesFrom_line_withReturns ih hreturn hjoins, Except.map_map, Except.map_map]
      congr 1
      funext more
      simp [Lexeme.afterReturn_layout]

/-- The lexer finds the same on both texts, by induction on the length of `cs`: within a line it
goes on with less, and after the margin of a line it goes on within it. -/
theorem lexesAlike (tabStop : Nat) (cs : List Char) : LexesAlike tabStop cs := by
  induction hn : cs.length using Nat.strongRecOn generalizing cs with
  | ind n ih =>
    subst hn
    have hsmaller (rest : List Char) (h : rest.length < cs.length) : LexesAlike tabStop rest :=
      ih _ h rest rfl
    intro hreturn hjoins fresh st
    cases fresh with
    | false => exact lexemesFrom_line_withReturns hsmaller hreturn hjoins
    | true =>
      have hall : (Indent.scan tabStop .none cs).text ++ (Indent.scan tabStop .none cs).rest = cs :=
        Indent.scan_all tabStop .none cs
      have hcode := (joinsInString_scan tabStop .none cs).trans hjoins
      rw [lexemesFrom_fresh, lexemesFrom_fresh, Indent.scan_withReturns]
      generalize Indent.scan tabStop .none cs = margin at hall hcode
      obtain ⟨indent, text, rest⟩ := margin
      dsimp only at hall hcode
      subst hall
      rw [List.mem_append, not_or] at hreturn
      refine lexAfterMargin_withReturns (fun more hmore => hsmaller more ?_) hreturn.2 hcode
      dsimp only at hmore
      rw [List.length_append]
      omega

/-- In a `source` without `\r` and without strings that go on over `\n`, a `\r` before each `\n`
makes no difference but to the columns of the ends of lines: either both texts have the same fault
at the same place, or they have the same lexemes. -/
theorem lexemes_withReturns {source : List Char} (hreturn : '\r' ∉ source)
    (hjoins : joinsInString .code source = false) :
    lexemes (withReturns source) = (lexemes source).map (·.map Lexeme.afterReturn) :=
  lexesAlike standardTabStop source hreturn hjoins true .start

/-- A block, a comment with a quote, a joined line, and brackets over two lines. -/
theorem lexemes_withReturns_block :
    let source := "if a: # 'b\n  c \\\n= ('d',\n1)\n"
    ('\r' ∉ source.toList ∧ joinsInString .code source.toList = false) ∧
      (lexemes source.toList).toBool = true ∧
      lexemes "if a: # 'b\r\n  c \\\r\n= ('d',\r\n1)\r\n".toList =
        (lexemes source.toList).map (·.map Lexeme.afterReturn) := by
  have hreturn : '\r' ∉ "if a: # 'b\n  c \\\n= ('d',\n1)\n".toList := by decide
  have hjoins : joinsInString .code "if a: # 'b\n  c \\\n= ('d',\n1)\n".toList = false := by decide
  have hok : (lexemes "if a: # 'b\n  c \\\n= ('d',\n1)\n".toList).toBool = true := by cbv
  have hreturns : withReturns "if a: # 'b\n  c \\\n= ('d',\n1)\n".toList =
      "if a: # 'b\r\n  c \\\r\n= ('d',\r\n1)\r\n".toList := by decide
  refine ⟨⟨hreturn, hjoins⟩, hok, ?_⟩
  rw [← hreturns]
  exact lexemes_withReturns hreturn hjoins

/-- A string goes on over `\n` after `\`. With `\r` between the two it is not terminated. -/
theorem lexemes_withReturns_string :
    (lexemes "x = 'a\\\nb'\n".toList).map (·.map (·.token)) =
        .ok [.name "x", .symbol .equal, .str "ab", .newline, .endOfFile] ∧
      lexemes (withReturns "x = 'a\\\nb'\n".toList) = .error ⟨.unterminatedString, ⟨1, 5⟩⟩ := by
  have hreturns : withReturns "x = 'a\\\nb'\n".toList = "x = 'a\\\r\nb'\r\n".toList := by decide
  rw [hreturns]
  exact ⟨by cbv, by cbv⟩

end Stepper
