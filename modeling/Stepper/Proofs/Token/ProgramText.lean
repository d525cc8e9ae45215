import Stepper.Proofs.Token.Gaps
import Stepper.Proofs.Token.Lexed

/-!
# What the lexer drops of a text

* `programText`: a source without the blanks, line ends, comments and line joins outside its
  strings, found character by character, with no regard to tokens.
* `hidesText`: a line that begins with a carriage return counts as bare, so what follows it there is
  not read. `lineStarts` are the places where such a line may begin.
* `Lexed.tokenText_eq`, `lexemes_programText`: in a source that hides nothing in this way, the
  tokens that are not layout make up the program text.
-/

namespace Stepper

/-! ## Program text -/

/-- What a character of a source belongs to. -/
inductive TextMode where
  | code
  | comment
  | quoted (quote : Char)
  /-- After a backslash in a string. -/
  | escaped (quote : Char)

/-- A blank between tokens, or the end of a line. -/
def isSpacing (c : Char) : Bool :=
  c = ' ' || c = '\t' || c = '\x0c' || c = '\r' || c = '\n'

/-- Whether `\` before this text joins its line with the next one: `\n` or `\r\n` comes first. -/
def joinsLines : List Char → Bool
  | [] => false
  | c :: rest => c = '\n' || (c = '\r' && rest.head? = some '\n')

/-- The source without blanks and line ends outside strings, without comments, and without each `\`
that joins lines. -/
def programText : TextMode → List Char → List Char
  | _, [] => []
  | .code, c :: rest =>
    if isSpacing c then programText .code rest
    else if c = '#' then programText .comment rest
    else if c = '\\' && joinsLines rest then programText .code rest
    else c :: programText (if c = '"' || c = '\x27' then .quoted c else .code) rest
  | .comment, c :: rest => programText (if c = '\n' then .code else .comment) rest
  | .quoted quote, c :: rest =>
    c :: programText
      (if c = quote then .code else if c = '\\' then .escaped quote else .quoted quote) rest
  | .escaped quote, c :: rest => c :: programText (.quoted quote) rest

/-- Whether `c` is a blank that counts for the indentation of a line. -/
def isMargin (c : Char) : Bool :=
  c = ' ' || c = '\t' || c = '\x0c'

/-- Whether a line that starts here begins with `\r`, after which there is program text. -/
def hidesText (cs : List Char) : Bool :=
  match cs.dropWhile isMargin with
  | '\r' :: rest => !(programText .code (restOfLine rest).text).isEmpty
  | _ => false

/-- The text from the start of each line but the first, after each `\n`. -/
def lineStarts : List Char → List (List Char)
  | [] => []
  | c :: rest => if c = '\n' then rest :: lineStarts rest else lineStarts rest

variable {c : Char} {cs rest text : List Char}

theorem lineStarts_append (text rest : List Char) :
    lineStarts rest ⊆ lineStarts (text ++ rest) := by
  induction text with
  | nil => exact List.Subset.refl _
  | cons c text ih =>
    rw [List.cons_append, lineStarts]
    split
    · exact List.subset_cons_of_subset _ ih
    · exact ih

/-- After a line the text is at its end, or another line starts. -/
theorem afterLine_mem (cs : List Char) : afterLine cs = [] ∨ afterLine cs ∈ lineStarts cs := by
  unfold afterLine
  induction cs with
  | nil => exact .inl rfl
  | cons c cs ih =>
    by_cases hc : c = '\n'
    · simp [restOfLine, lineStarts, hc]
    · simpa [restOfLine, lineStarts, hc, Scanned.put] using ih

/-! ## Gaps -/

theorem programText_code (c : Char) (rest : List Char) :
    programText .code (c :: rest) =
      if isSpacing c then programText .code rest
      else if c = '#' then programText .comment rest
      else if c = '\\' && joinsLines rest then programText .code rest
      else c :: programText (if c = '"' || c = '\x27' then .quoted c else .code) rest := rfl

theorem programText_spacing (hc : isSpacing c = true) (rest : List Char) :
    programText .code (c :: rest) = programText .code rest := by
  simp [programText, hc]

theorem programText_spacings (h : ∀ c ∈ text, isSpacing c = true) (rest : List Char) :
    programText .code (text ++ rest) = programText .code rest := by
  induction text with
  | nil => rfl
  | cons c text ih =>
    rw [List.forall_mem_cons] at h
    rw [List.cons_append, programText_spacing h.1, ih h.2]

theorem programText_joined (h : joinsLines rest = true) :
    programText .code ('\\' :: rest) = programText .code rest := by
  simp [programText, isSpacing, h]

/-- Between tokens `skipBlanks` only skips gaps, in which there is no program text. -/
theorem programText_skipBlanks (inComment : Bool) (cs : List Char) :
    programText (if inComment then .comment else .code) cs =
      programText .code (skipBlanks inComment cs).rest := by
  induction inComment, cs using skipBlanks_induct with
  | nil b => cases b <;> rfl
  | lineFeed b rest => cases b <;> simp [programText, isSpacing, skipBlanks_lineFeed]
  | inComment c rest hc ih => simpa [programText, hc, skipBlanks_inComment, Scanned.put] using ih
  | gap c rest hgap ih =>
    have hspacing : isSpacing c = true := by
      simp only [isGap, isSpacing, Bool.or_eq_true] at hgap ⊢
      grind
    rw [skipBlanks_gap hgap, if_neg Bool.false_ne_true, programText_spacing hspacing]
    exact ih
  | hash rest ih => simpa [programText, isSpacing, skipBlanks_hash, Scanned.put] using ih
  | joined rest ih =>
    rw [skipBlanks_joined, if_neg Bool.false_ne_true, programText_joined rfl,
      programText_spacing rfl]
    exact ih
  | joinedReturn rest ih =>
    rw [skipBlanks_joinedReturn, if_neg Bool.false_ne_true, programText_joined rfl,
      programText_spacing rfl, programText_spacing rfl]
    exact ih
  | backslash rest hfeed hreturn => rw [skipBlanks_backslash hfeed hreturn]; rfl
  | visible c rest hvisible => rw [skipBlanks_visible hvisible]; rfl

theorem programText_comment (cs : List Char) :
    programText .comment cs = programText .code (afterLine cs) := by
  unfold afterLine
  fun_induction restOfLine cs <;> simp_all [programText, Scanned.put]

theorem joinsLines_restOfLine (cs : List Char) :
    joinsLines (restOfLine cs).text = joinsLines cs := by
  rcases cs with _ | ⟨c, _ | ⟨d, cs⟩⟩
  · rfl
  · by_cases hc : c = '\n' <;> simp [restOfLine, hc, Scanned.put]
  · by_cases hc : c = '\n'
    · simp [restOfLine, hc, joinsLines]
    · by_cases hd : d = '\n' <;> simp [restOfLine, hc, hd, Scanned.put, joinsLines]

/-- Nothing is lost with a line that has no program text. -/
theorem programText_restOfLine (h : programText .code (restOfLine cs).text = []) :
    programText .code cs = programText .code (afterLine cs) := by
  induction cs with
  | nil => rfl
  | cons c cs ih =>
    by_cases hc : c = '\n'
    · subst c
      exact programText_spacing rfl cs
    · have hafter : afterLine (c :: cs) = afterLine cs := by
        simp [afterLine, restOfLine, hc, Scanned.put]
      rw [hafter]
      simp only [restOfLine, hc, if_false, Scanned.put] at h
      rw [programText_code, joinsLines_restOfLine] at h
      rw [programText_code]
      split at h
      · rw [if_pos ‹_›]
        exact ih h
      · rw [if_neg ‹_›]
        split at h
        · rw [if_pos ‹_›]
          exact programText_comment cs
        · rw [if_neg ‹_›]
          split at h
          · rw [if_pos ‹_›]
            exact ih h
          · cases h

/-! ## Tokens -/

/-- The characters that mean something else than themselves outside a string. -/
def textMarks : List Char :=
  [' ', '\t', '\x0c', '\r', '\n', '#', '\\', '"', '\x27']

theorem programText_plain (h : ∀ c ∈ text, c ∉ textMarks) (rest : List Char) :
    programText .code (text ++ rest) = text ++ programText .code rest := by
  induction text with
  | nil => rfl
  | cons c text ih =>
    rw [List.forall_mem_cons] at h
    have hc := h.1
    simp only [textMarks, List.mem_cons, List.not_mem_nil, not_or, or_false] at hc
    rw [List.cons_append, programText_code]
    simp [isSpacing, hc, ih h.2]

/-- A character `c` of a class `p` without those marks is none of them. -/
theorem not_mem_textMarks {p : Char → Bool} (hp : textMarks.all fun c => !p c) (hc : p c = true) :
    c ∉ textMarks := by
  intro hmem
  have := List.all_eq_true.1 hp c hmem
  simp [hc] at this

theorem programText_scanString {quote : Char} {s : Scanned (List Char)}
    (h : scanString quote cs = some s) :
    programText (.quoted quote) cs = s.text ++ programText .code s.rest := by
  fun_induction scanString quote cs generalizing s with
  | case1 => cases h
  | case2 rest =>
    cases h
    simp [programText]
  | case3 => cases h
  | case4 => cases h
  | case5 e rest hquote _ ih =>
    obtain ⟨t, ht, rfl⟩ := Option.map_eq_some_iff.1 h
    simp [programText, hquote, ih ht, Scanned.map, Scanned.put]
  | case6 c rest hquote _ hslash ih =>
    obtain ⟨t, ht, rfl⟩ := Option.map_eq_some_iff.1 h
    simp [programText, hquote, hslash, ih ht, Scanned.map, Scanned.put]

/-- Whether `c` is a character of a number. -/
def isNumeric (c : Char) : Bool :=
  Text.isAsciiDigit c || c ∈ ['_', '.', 'e', 'E', '+', '-']

theorem scanDigits_numeric (cs : List Char) : ∀ c ∈ (scanDigits cs).text, isNumeric c = true := by
  fun_induction scanDigits cs with
  | case1 => simp
  | case2 c rest hdigit ih => simpa [Scanned.map, Scanned.put, isNumeric, hdigit] using ih
  | case3 c rest _ hunderscore ih =>
    obtain ⟨rfl, -⟩ : c = '_' ∧ startsWithDigit rest = true := by simpa using hunderscore
    simpa [Scanned.put, isNumeric] using ih
  | case4 => simp

theorem scanFraction_numeric {s : Scanned (List Char)} (h : scanFraction cs = some s) :
    ∀ c ∈ s.text, isNumeric c = true := by
  unfold scanFraction at h
  split at h
  · cases h
    simpa [Scanned.put, isNumeric] using scanDigits_numeric _
  · cases h

theorem scanSign_numeric (cs : List Char) : ∀ c ∈ (scanSign cs).text, isNumeric c = true := by
  unfold scanSign
  repeat' split
  all_goals simp [isNumeric]
  · simp [*]
  · simp [*]

theorem scanExponent_numeric {s : Scanned Int} (h : scanExponent cs = some s) :
    ∀ c ∈ s.text, isNumeric c = true := by
  cases cs with
  | nil => cases h
  | cons c rest =>
    simp only [scanExponent] at h
    split at h
    · rename_i hstart
      cases h
      simp only [Bool.and_eq_true, Bool.or_eq_true, decide_eq_true_eq] at hstart
      have hsign := scanSign_numeric rest
      have hdigits := scanDigits_numeric (scanSign rest).rest
      have hc : isNumeric c = true := by
        rcases hstart.1 with rfl | rfl <;> simp [isNumeric]
      grind
    · cases h

theorem Scanned.forall_mem_optional {p : Char → Prop} {found : Option (Scanned α)}
    (cs : List Char) (h : ∀ s, found = some s → ∀ c ∈ s.text, p c) :
    ∀ c ∈ (Scanned.optional found cs).text, p c := by
  cases found with
  | none => simp [Scanned.optional]
  | some s => exact h s rfl

theorem scanNumeral_numeric (cs : List Char) :
    ∀ c ∈ (scanNumeral cs).text, isNumeric c = true := by
  have hwhole := scanDigits_numeric cs
  have hfraction := Scanned.forall_mem_optional (scanDigits cs).rest
    fun s => @scanFraction_numeric (scanDigits cs).rest s
  have hexponent {after : List Char} := Scanned.forall_mem_optional after
    fun s => @scanExponent_numeric after s
  simp only [scanNumeral, List.mem_append]
  rintro c (hc | hc | hc)
  · exact hwhole c hc
  · exact hfraction c hc
  · exact hexponent c hc

theorem Symbol.text_plain (s : Symbol) : ∀ c ∈ s.text.toList, c ∉ textMarks := by
  have hall : (s.text.toList.all fun c => !textMarks.contains c) = true := by
    cases s <;> decide
  simpa using hall

/-- A token `s` that is no string has none of `textMarks` among its characters. -/
theorem scanToken_plain {s : Scanned Token} (hquote : (c = '"' || c = '\x27') = false)
    (h : scanToken c rest = .ok s) : ∀ d ∈ s.text, d ∉ textMarks := by
  rw [scanToken, if_neg (Bool.eq_false_iff.1 hquote)] at h
  split at h
  · obtain ⟨token, -, rfl⟩ := ok_of_map_eq_ok h
    exact fun d hd => not_mem_textMarks (by decide) (scanNumeral_numeric _ d hd)
  · split at h
    · cases h
      exact fun d hd => not_mem_textMarks (by decide) (List.all_eq_true.1 List.all_takeWhile d hd)
    · split at h
      · rename_i hsymbol
        cases h
        obtain ⟨symbol, -, rfl⟩ := Option.map_eq_some_iff.1 hsymbol
        exact symbol.text_plain
      · cases h

/-- A string is read after its opening quote `c`, by `scanString`. -/
theorem exists_of_scanToken_quote {s : Scanned Token} (hquote : (c = '"' || c = '\x27') = true)
    (h : scanToken c rest = .ok s) :
    ∃ t, scanString c rest = some t ∧
      s = (t.map fun value => .str (String.ofList value)).put c := by
  rw [scanToken, if_pos hquote] at h
  split at h
  · rename_i t hscan
    exact ⟨t, hscan, (Except.ok.inj h).symm⟩
  · cases h

/-- What a token `s` is read from is program text, and after it comes more code. -/
theorem programText_scanToken {s : Scanned Token} (h : scanToken c rest = .ok s) :
    programText .code (c :: rest) = s.text ++ programText .code s.rest := by
  cases hquote : (c = '"' || c = '\x27' : Bool) with
  | false =>
    have hall : s.text ++ s.rest = c :: rest := scanToken_all h
    rw [← hall]
    exact programText_plain (scanToken_plain hquote h) s.rest
  | true =>
    obtain ⟨t, hscan, rfl⟩ := exists_of_scanToken_quote hquote h
    rcases (by simpa using hquote : c = '"' ∨ c = '\x27') with rfl | rfl <;>
      simp [programText_code, isSpacing, programText_scanString hscan, Scanned.map, Scanned.put]

/-! ## Whole texts -/

/-- The characters of the tokens in `ls` that are not layout. -/
def tokenText (ls : List Lexeme) : List Char :=
  (ls.filter fun l => !l.token.isLayout).flatMap (·.text)

theorem tokenText_append (ls ms : List Lexeme) :
    tokenText (ls ++ ms) = tokenText ls ++ tokenText ms := by
  simp [tokenText]

theorem tokenText_layout {tokens : List Token} (h : ∀ t ∈ tokens, t.isLayout = true)
    (loc : Location) : tokenText (tokens.map (⟨·, loc, []⟩)) = [] := by
  simp +contextual [tokenText, h]

theorem LexState.tokenText_finish (st : LexState) : tokenText st.finish = [] := by
  have hends : ∀ t ∈ st.endTokens, t.isLayout = true := by
    intro t ht
    rcases st.endTokens_cases t ht with rfl | rfl <;> rfl
  rw [st.finish_eq, tokenText_append, tokenText_layout hends]
  rfl

variable {tabStop : Nat} {indent : Indent}

theorem Indent.scan_text_margin (tabStop : Nat) (indent : Indent) (cs : List Char) :
    ∀ c ∈ (Indent.scan tabStop indent cs).text, isSpacing c = true := by
  fun_induction Indent.scan tabStop indent cs with
  | case1 => simp
  | case2 indent c rest hc ih =>
    have hspacing : isSpacing c = true := by
      simp only [isSpacing, Bool.or_eq_true] at hc ⊢
      grind
    simpa [Scanned.put, hspacing] using ih
  | case3 => simp

theorem Indent.scan_rest (tabStop : Nat) (indent : Indent) (cs : List Char) :
    (Indent.scan tabStop indent cs).rest = cs.dropWhile isMargin := by
  fun_induction Indent.scan tabStop indent cs <;>
    simp_all [isMargin, List.dropWhile_cons, Scanned.put]

/-- The margin `blanks` of a line is no program text. -/
theorem programText_margin {blanks : List Char}
    (h : Indent.scan tabStop .none cs = ⟨indent, blanks, rest⟩) :
    programText .code cs = programText .code rest := by
  have hblanks := Indent.scan_text_margin tabStop .none cs
  rw [h] at hblanks
  rw [Scanned.split (Indent.scan_all ..) h]
  exact programText_spacings hblanks rest

/-- A bare line that hides nothing has no program text. -/
theorem programText_bareLine {blanks : List Char}
    (hscan : Indent.scan tabStop .none cs = ⟨indent, blanks, c :: rest⟩)
    (hbare : isBareLine (c :: rest) = true) (hhides : hidesText cs = false) :
    programText .code cs = programText .code (afterLine (c :: rest)) := by
  rw [programText_margin hscan]
  refine programText_restOfLine ?_
  have hmargin := Indent.scan_rest tabStop .none cs
  rw [hscan] at hmargin
  have hcases : c = '\n' ∨ c = '\r' ∨ c = '#' := by
    simpa [isBareLine, or_assoc] using hbare
  rcases hcases with rfl | rfl | rfl
  · rfl
  · rw [hidesText, ← hmargin] at hhides
    have hline : programText .code (restOfLine rest).text = [] := by simpa using hhides
    simpa [restOfLine, Scanned.put, programText_code, isSpacing] using hline
  · -- the comment ends with the line, and its end is no program text
    have hcomment := programText_comment (restOfLine ('#' :: rest)).text
    have hafter (ds : List Char) : afterLine (restOfLine ds).text = [] := by
      unfold afterLine
      fun_induction restOfLine ds <;> simp_all [restOfLine, Scanned.put]
    rw [hafter] at hcomment
    have hcode : programText .code (restOfLine ('#' :: rest)).text =
        programText .comment (restOfLine rest).text := by
      simp [restOfLine, Scanned.put, programText_code, isSpacing]
    rw [hcode]
    have := programText_comment (restOfLine rest).text
    rw [this, hafter]
    rfl

variable {fresh : Bool} {st : LexState} {ls : List Lexeme}

/-- In a text `cs` that hides nothing, the tokens make up the program text. -/
theorem Lexed.tokenText_eq (h : Lexed tabStop fresh st cs ls)
    (here : fresh = true → hidesText cs = false)
    (later : ∀ start ∈ lineStarts cs, hidesText start = false) :
    tokenText ls = programText .code cs := by
  have hgap {cs blanks rest : List Char} (h : skipBlanks false cs = ⟨(), blanks, rest⟩) :
      programText .code cs = programText .code rest := by
    have := programText_skipBlanks false cs
    rwa [h] at this
  have hlater {cs text rest : List Char} (h : cs = text ++ rest)
      (later : ∀ start ∈ lineStarts cs, hidesText start = false) :
      ∀ start ∈ lineStarts rest, hidesText start = false :=
    fun start hstart => later start (h ▸ lineStarts_append text rest hstart)
  -- Along the rules, with what is known of line starts handed down to the rest of the text.
  induction h with
  | bareEnd margin =>
    rw [LexState.tokenText_finish, programText_margin margin]
    rfl
  | @bareLine _ cs blanks rest _ c _ margin bare more ih =>
    have hrest := hlater (Scanned.split (Indent.scan_all ..) margin) later
    have hsplit := hlater (restOfLine_all (c :: rest)).symm hrest
    rw [programText_bareLine margin bare (here rfl)]
    refine ih (fun _ => ?_) hsplit
    rcases afterLine_mem (c :: rest) with hnil | hmem
    · rw [hnil]; rfl
    · exact hrest _ hmem
  | @margin _ _ _ _ _ tokens _ _ margin bare entered more ih =>
    have hlayout : ∀ t ∈ tokens, t.isLayout = true := by
      intro t ht
      rcases Indent.enter_cases entered t ht with rfl | rfl <;> rfl
    rw [tokenText_append, tokenText_layout hlayout, programText_margin margin, List.nil_append]
    exact ih (by simp) (hlater (Scanned.split (Indent.scan_all ..) margin) later)
  | finished gap =>
    rw [LexState.tokenText_finish, hgap gap]
    rfl
  | @lineEnd _ _ _ rest ls gap outside more ih =>
    have hrest := hlater (Scanned.split (skipBlanks_all ..) gap) later
    rw [hgap gap, programText_spacing rfl]
    exact ih (fun _ => hrest rest (by simp [lineStarts])) (hlater List.singleton_append.symm hrest)
  | joined gap inside more ih =>
    rw [hgap gap, programText_spacing rfl]
    have hrest := hlater (Scanned.split (skipBlanks_all ..) gap) later
    exact ih (by simp) (hlater List.singleton_append.symm hrest)
  | token gap visible scanned more ih =>
    have hrest := hlater (Scanned.split (skipBlanks_all ..) gap) later
    have hmore := ih (by simp) (hlater (scanToken_all scanned).symm hrest)
    rw [hgap gap, programText_scanToken scanned, ← hmore]
    simp [tokenText, isLayout_of_scanToken scanned]

/-- In a `source` that hides nothing, the lexemes stand where they say, and those that are not
layout make up its `programText`. If there are none, there is no program text. -/
theorem lexemes_programText {source : List Char} (h : lexemes source = .ok ls)
    (visible : ∀ start ∈ source :: lineStarts source, hidesText start = false) :
    Laid .start source ls ∧ tokenText ls = programText .code source ∧
      (ls.map (·.token) = [.endOfFile] → programText .code source = []) := by
  rw [List.forall_mem_cons] at visible
  have htext : tokenText ls = programText .code source :=
    (lexed_of_ok h).tokenText_eq (fun _ => visible.1) visible.2
  refine ⟨lexemes_laid h, htext, fun hend => ?_⟩
  obtain ⟨l, rfl, hl⟩ := List.map_eq_singleton_iff.1 hend
  rw [← htext]
  simp [tokenText, hl, Token.isLayout]

/-- A comment, a carriage return, a joined line and a bare line. -/
theorem lexemes_programText_comment :
    let source := "x = [1, # one\r\n 2]\n\r\ny \\\n= 2".toList
    (∀ start ∈ source :: lineStarts source, hidesText start = false) ∧
      ∃ ls, lexemes source = .ok ls ∧ tokenText ls = "x=[1,2]y=2".toList := by
  have hvisible : ∀ start ∈ "x = [1, # one\r\n 2]\n\r\ny \\\n= 2".toList ::
      lineStarts "x = [1, # one\r\n 2]\n\r\ny \\\n= 2".toList, hidesText start = false := by
    decide
  refine ⟨hvisible, ?_⟩
  have hok : (lexemes "x = [1, # one\r\n 2]\n\r\ny \\\n= 2".toList).toBool = true := by cbv
  generalize hlex : lexemes "x = [1, # one\r\n 2]\n\r\ny \\\n= 2".toList = r at hok
  cases r with
  | error => cases hok
  | ok ls =>
    obtain ⟨-, htext, -⟩ := lexemes_programText hlex hvisible
    exact ⟨ls, rfl, htext.trans (by decide)⟩

/-- The rest of a line that begins with `\r` is not read, although `x = 1` is program text. -/
theorem lexemes_hidden_line :
    lexemes "\rx = 1\n".toList = .ok [⟨.endOfFile, ⟨2, 1⟩, []⟩] ∧
      programText .code "\rx = 1\n".toList = "x=1".toList := by
  refine ⟨?_, by decide⟩
  cbv

end Stepper
