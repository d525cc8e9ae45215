import Stepper.Proofs.Number.Digits
import Stepper.Token.Lexemes

/-!
# How texts are split into tokens

* `Lexes`: the lexer takes some tokens from the front of a text. Texts are put together with
  `Lexes.append`.
* `Lexes.lexemes`: a text of one line that is read to its end.
* `Lexes.literal`, `Lexes.natural`, `Lexes.word`: the tokens of a quoted text, of decimal digits and
  of a word. Words and digits end before a character that is `Delimited`.
* `Text.reread`: what a quoted text is read as.
-/

namespace Stepper

/-- On the lines of `cs` the lexer finds the tokens `ts`, and then goes on with `rest`. -/
def Lexes (cs rest : List Char) (ts : List Token) : Prop :=
  ∀ tabStop st, ∃ ls st', ls.map (·.token) = ts ∧ st'.levels = st.levels ∧
    (st'.lineOpen = true ↔ st.lineOpen = true ∨ ts ≠ []) ∧
    lexemesFrom tabStop false st cs = (lexemesFrom tabStop false st' rest).map (ls ++ ·)

variable {c : Char} {cs mid rest : List Char} {ts us : List Token}

/-- What holds of the characters of `cs` is found by computing it for each. -/
theorem forall_mem_of_all {p : Char → Prop} [DecidablePred p]
    (h : cs.all fun c => decide (p c)) : ∀ c ∈ cs, p c :=
  fun c hc => of_decide_eq_true (List.all_eq_true.1 h c hc)

theorem Except.map_map (f : β → γ) (g : α → β) (x : Except ε α) :
    (x.map g).map f = x.map (f ∘ g) := by
  cases x <;> rfl

theorem Lexes.nil : Lexes cs cs [] := by
  intro tabStop st
  refine ⟨[], st, rfl, rfl, by simp, ?_⟩
  cases lexemesFrom tabStop false st cs <;> rfl

theorem Lexes.append (h : Lexes cs mid ts) (h' : Lexes mid rest us) : Lexes cs rest (ts ++ us) := by
  intro tabStop st
  obtain ⟨ls, st₁, hls, hlevels, hopen, hrun⟩ := h tabStop st
  obtain ⟨ls', st₂, hls', hlevels', hopen', hrun'⟩ := h' tabStop st₁
  refine ⟨ls ++ ls', st₂, by simp [hls, hls'], hlevels'.trans hlevels, ?_, ?_⟩
  · rw [hopen', hopen]
    simp only [ne_eq, List.append_eq_nil_iff, Classical.not_and_iff_not_or_not, or_assoc]
  · rw [hrun, hrun', Except.map_map]
    congr 1
    funext more
    simp

/-! ## Blanks and single tokens -/

/-- What the lexer does after blanks, in the state `st`. -/
def lexAfterBlanks (tabStop : Nat) (st : LexState) : List Char → Except SyntaxError (List Lexeme)
  | [] => .ok st.finish
  | c :: rest =>
    if c = '\n' then
      if st.depth = 0 then
        (lexemesFrom tabStop true { st.skip [c] with lineOpen := false } rest).map
          (⟨.newline, st.loc, [c]⟩ :: ·)
      else
        lexemesFrom tabStop false (st.skip [c]) rest
    else
      match scanToken c rest with
      | .error fault => .error ⟨fault, st.loc⟩
      | .ok s =>
        (lexemesFrom tabStop false (st.afterToken s) s.rest).map (⟨s.value, st.loc, s.text⟩ :: ·)

theorem lexemesFrom_eq (tabStop : Nat) (st : LexState) (cs : List Char) :
    lexemesFrom tabStop false st cs =
      lexAfterBlanks tabStop (st.skip (skipBlanks false cs).text) (skipBlanks false cs).rest := by
  rw [lexemesFrom, if_neg Bool.false_ne_true]
  generalize skipBlanks false cs = blanks
  obtain ⟨-, text, rest⟩ := blanks
  cases rest with
  | nil => rfl
  | cons c rest =>
    simp only [lexAfterBlanks]
    generalize scanToken c rest = r
    cases r <;> rfl

theorem skipBlanks_space (cs : List Char) :
    skipBlanks false (' ' :: cs) = (skipBlanks false cs).put ' ' := by
  conv => lhs; unfold skipBlanks
  rfl

theorem Lexes.blank : Lexes (' ' :: cs) cs [] := by
  intro tabStop st
  refine ⟨[], st.skip [' '], rfl, rfl, by simp [LexState.skip], ?_⟩
  rw [lexemesFrom_eq, lexemesFrom_eq, skipBlanks_space]
  change lexAfterBlanks tabStop ((st.skip [' ']).skip (skipBlanks false cs).text)
    (skipBlanks false cs).rest = _
  generalize lexAfterBlanks tabStop _ _ = found
  cases found <;> rfl

/-- Whether `c` is a character that no blank, comment or joined line begins with. -/
def isVisible (c : Char) : Bool :=
  c ≠ ' ' && c ≠ '\t' && c ≠ '\r' && c ≠ '\x0c' && c ≠ '#' && c ≠ '\\' && c ≠ '\n'

theorem skipBlanks_visible (hc : isVisible c = true) (cs : List Char) :
    skipBlanks false (c :: cs) = ⟨(), [], c :: cs⟩ := by
  simp only [isVisible, Bool.and_eq_true, decide_eq_true_eq] at hc
  unfold skipBlanks
  simp [hc]

theorem Lexes.token {s : Scanned Token} (hc : isVisible c = true) (hs : scanToken c cs = .ok s) :
    Lexes (c :: cs) s.rest [s.value] := by
  intro tabStop st
  refine ⟨[⟨s.value, st.loc, s.text⟩], st.afterToken s, rfl, rfl, by simp [LexState.afterToken], ?_⟩
  rw [lexemesFrom_eq, skipBlanks_visible hc]
  have hline : c ≠ '\n' := by
    rintro rfl
    cases hc
  simp only [lexAfterBlanks, if_neg hline, hs]
  rfl

theorem Lexes.symbol {s : Symbol} (hc : isVisible c = true)
    (hs : scanToken c cs = .ok ⟨.symbol s, s.text.toList, rest⟩) :
    Lexes (c :: cs) rest [.symbol s] :=
  Lexes.token hc hs

/-! ## A whole line -/

theorem lexemes_of_visible (hc : isVisible c = true) (cs : List Char) :
    lexemes (c :: cs) = lexemesFrom standardTabStop false .start (c :: cs) := by
  simp only [isVisible, Bool.and_eq_true, decide_eq_true_eq] at hc
  have hscan : Indent.scan standardTabStop .none (c :: cs) = ⟨.none, [], c :: cs⟩ := by
    simp [Indent.scan, hc]
  have hbare : isBareLine (c :: cs) = false := by simp [isBareLine, hc]
  rw [lexemes, lexemesWith, lexemesFrom, if_pos rfl]
  simp only [hscan, hbare, Bool.false_eq_true, if_false]
  change (lexemesFrom standardTabStop false .start (c :: cs)).map ([] ++ ·) = _
  generalize lexemesFrom standardTabStop false .start (c :: cs) = found
  cases found <;> rfl

/-- A text of one line ends with `newline` and `endOfFile`. -/
theorem Lexes.lexemes (h : Lexes (c :: cs) [] ts) (hc : isVisible c = true) (hts : ts ≠ []) :
    ∃ ls, Stepper.lexemes (c :: cs) = .ok ls ∧
      ls.map (·.token) = ts ++ [.newline, .endOfFile] := by
  obtain ⟨ls, st, hls, hlevels, hopen, hrun⟩ := h standardTabStop .start
  have hline : st.lineOpen = true := hopen.2 (.inr hts)
  refine ⟨ls ++ [⟨.newline, st.loc, []⟩, ⟨.endOfFile, st.loc, []⟩], ?_, by simp [hls]⟩
  rw [lexemes_of_visible hc, hrun, lexemesFrom_eq]
  change Except.map (ls ++ ·) (.ok st.finish) = _
  have hlevels' : st.levels = [] := hlevels
  simp [LexState.finish, hline, hlevels', Except.map]

/-! ## Strings -/

/-- The escaped form of `c` stands for `c`: it is no control character but `\t`, `\n` and `\r`. -/
def IsQuotable (c : Char) : Prop :=
  c.toNat < 0x20 ∨ c.toNat = 0x7F → c = '\t' ∨ c = '\n' ∨ c = '\r'

instance : DecidablePred IsQuotable :=
  fun _ => inferInstanceAs (Decidable (_ → _))

/-- What the form of `c` in a literal is read as. An escape by number is not known to the lexer,
which takes it as it stands. -/
def rereadChar (c : Char) : List Char :=
  if IsQuotable c then [c] else '\\' :: 'x' :: Text.hexPair c.toNat

theorem rereadChar_of_isQuotable (hc : IsQuotable c) : rereadChar c = [c] :=
  if_pos hc

theorem flatMap_rereadChar {text : List Char} (h : ∀ c ∈ text, IsQuotable c) :
    text.flatMap rereadChar = text := by
  induction text with
  | nil => rfl
  | cons c text ih =>
    rw [List.forall_mem_cons] at h
    rw [List.flatMap_cons, rereadChar_of_isQuotable h.1, ih h.2]
    rfl

/-- What the literal of `s` is read as. -/
def Text.reread (s : String) : String :=
  String.ofList (s.toList.flatMap rereadChar)

theorem Text.reread_eq_self {s : String} (h : ∀ c ∈ s.toList, IsQuotable c) : reread s = s := by
  rw [reread, flatMap_rereadChar h, String.ofList_toList]

section Scan

variable {quote : Char} {tail text value : List Char}

/-- A character `c` that is neither quote nor escape nor line feed stands for itself. -/
theorem scanString_plain (hquote : c ≠ quote) (hline : c ≠ '\n') (hslash : c ≠ '\\')
    (h : scanString quote tail = some ⟨value, text, rest⟩) :
    scanString quote (c :: tail) = some ⟨c :: value, c :: text, rest⟩ := by
  rw [scanString.eq_def]
  simp [hquote, hline, hslash, h, Scanned.map, Scanned.put]

theorem scanString_escape (hquote : quote = '"' ∨ quote = '\x27') (e : Char)
    (h : scanString quote tail = some ⟨value, text, rest⟩) :
    scanString quote ('\\' :: e :: tail) =
      some ⟨unescape e ++ value, '\\' :: e :: text, rest⟩ := by
  have hslash : '\\' ≠ quote := by obtain rfl | rfl := hquote <;> decide
  rw [scanString, if_neg hslash, if_neg (by decide), if_pos rfl]
  simp [h, Scanned.map, Scanned.put]

theorem scanString_hexDigit (hquote : quote = '"' ∨ quote = '\x27') {n : Nat} (hn : n < 16)
    (h : scanString quote tail = some ⟨value, text, rest⟩) :
    scanString quote (Text.hexDigit n :: tail) =
      some ⟨Text.hexDigit n :: value, Text.hexDigit n :: text, rest⟩ := by
  have hdigit : ∀ n < 16, Text.hexDigit n ≠ '"' ∧ Text.hexDigit n ≠ '\x27' ∧
      Text.hexDigit n ≠ '\n' ∧ Text.hexDigit n ≠ '\\' := by decide
  obtain ⟨hdouble, hsingle, hline, hslash⟩ := hdigit n hn
  refine scanString_plain ?_ hline hslash h
  obtain rfl | rfl := hquote
  · exact hdouble
  · exact hsingle

theorem scanString_literalChar (hquote : quote = '"' ∨ quote = '\x27')
    (h : scanString quote tail = some ⟨value, text, rest⟩) :
    scanString quote (Text.literalChar quote c ++ tail) =
      some ⟨rereadChar c ++ value, Text.literalChar quote c ++ text, rest⟩ := by
  have hescaped {e : Char} (hc : IsQuotable c) (he : unescape e = [c]) :
      scanString quote ('\\' :: e :: tail) =
        some ⟨rereadChar c ++ value, '\\' :: e :: text, rest⟩ := by
    rw [rereadChar_of_isQuotable hc, ← he]
    exact scanString_escape hquote e h
  unfold Text.literalChar
  split
  · subst c; exact hescaped (by decide) rfl
  split
  · subst c; exact hescaped (by decide) rfl
  split
  · subst c; exact hescaped (by decide) rfl
  split
  · subst c; exact hescaped (by decide) rfl
  split
  · rename_i heq
    subst heq
    obtain rfl | rfl := hquote <;> exact hescaped (by decide) rfl
  split
  · rename_i hslash hline htab hreturn _ hcontrol
    simp only [Bool.or_eq_true, decide_eq_true_eq] at hcontrol
    have hreread : rereadChar c = '\\' :: 'x' :: Text.hexPair c.toNat :=
      if_neg fun hc => by simpa [hline, htab, hreturn] using hc hcontrol
    rw [hreread]
    exact scanString_escape hquote 'x' <|
      scanString_hexDigit hquote (by omega) (scanString_hexDigit hquote (by omega) h)
  · rename_i hslash hline _ _ hne hcontrol
    simp only [Bool.or_eq_true, decide_eq_true_eq] at hcontrol
    rw [rereadChar_of_isQuotable fun h => absurd h hcontrol]
    exact scanString_plain hne hline hslash h

theorem scanString_literal (hquote : quote = '"' ∨ quote = '\x27') (text : List Char) :
    scanString quote (text.flatMap (Text.literalChar quote) ++ quote :: rest) =
      some ⟨text.flatMap rereadChar, text.flatMap (Text.literalChar quote) ++ [quote], rest⟩ := by
  induction text with
  | nil =>
    rw [List.flatMap_nil, List.nil_append, scanString.eq_def]
    exact if_pos rfl
  | cons c text ih =>
    simp only [List.flatMap_cons, List.append_assoc]
    exact scanString_literalChar hquote ih

end Scan

/-- The literal of `s` is read as `s`, but for the escapes by number in it. -/
theorem Lexes.literal (s : String) :
    Lexes ((Text.literal s).toList ++ rest) rest [.str (Text.reread s)] := by
  have hquote : Text.literalQuote s.toList = '"' ∨ Text.literalQuote s.toList = '\x27' := by
    unfold Text.literalQuote
    split
    · exact .inl rfl
    · exact .inr rfl
  have hvisible : isVisible (Text.literalQuote s.toList) = true := by
    obtain h | h := hquote <;> rw [h] <;> decide
  rw [Text.literal, String.toList_ofList, Text.literalChars, List.cons_append, List.append_assoc]
  generalize Text.literalQuote s.toList = quote at hquote hvisible ⊢
  have hscan : scanToken quote (s.toList.flatMap (Text.literalChar quote) ++ quote :: rest) =
      .ok ⟨.str (Text.reread s), quote :: (s.toList.flatMap (Text.literalChar quote) ++ [quote]),
        rest⟩ := by
    have hstart : (quote = '"' || quote = '\x27') = true := by simp [hquote]
    rw [scanToken, if_pos hstart, scanString_literal hquote s.toList]
    rfl
  exact Lexes.token hvisible hscan

/-! ## Numbers and words -/

/-- The text ends here, or one of `,`, `:`, `]` and `\x7d` follows. -/
def Delimited (rest : List Char) : Prop :=
  ∀ c ∈ rest.head?, c ∈ [',', ':', ']', '\x7d']

theorem delimited_nil : Delimited [] := by simp [Delimited]

theorem scanDigits_append {digits : List Char} (hdigits : ∀ c ∈ digits, Text.isAsciiDigit c = true)
    (hrest : Delimited rest) : scanDigits (digits ++ rest) = ⟨digits, digits, rest⟩ := by
  induction digits with
  | nil =>
    cases rest with
    | nil => rfl
    | cons c rest =>
      have hnot : ∀ c ∈ [',', ':', ']', '\x7d'], Text.isAsciiDigit c = false ∧ c ≠ '_' :=
        forall_mem_of_all (by decide)
      have hc := hnot c (hrest c rfl)
      simp [scanDigits, hc]
  | cons d digits ih =>
    rw [List.forall_mem_cons] at hdigits
    rw [List.cons_append, scanDigits, if_pos hdigits.1, ih hdigits.2]
    rfl

theorem scanNumeral_digits {digits : List Char}
    (hdigits : ∀ c ∈ digits, Text.isAsciiDigit c = true) (hrest : Delimited rest) :
    scanNumeral (digits ++ rest) = ⟨⟨digits, none, none⟩, digits, rest⟩ := by
  have hfraction : scanFraction rest = none := by
    cases rest with
    | nil => rfl
    | cons c rest =>
      have hnot : ∀ c ∈ [',', ':', ']', '\x7d'], c ≠ '.' := forall_mem_of_all (by decide)
      unfold scanFraction
      split
      · rename_i h
        cases h
        exact absurd rfl (hnot _ (hrest _ rfl))
      · rfl
  have hexponent : scanExponent rest = none := by
    cases rest with
    | nil => rfl
    | cons c rest =>
      have hnot : ∀ c ∈ [',', ':', ']', '\x7d'], c ≠ 'e' ∧ c ≠ 'E' :=
        forall_mem_of_all (by decide)
      have hc := hnot c (hrest c rfl)
      simp [scanExponent, hc]
  rw [scanNumeral]
  simp [scanDigits_append hdigits hrest, hfraction, hexponent, Scanned.optional]

/-- The decimal digits of `n`, below `2 ^ 63`, are read as `n`. -/
theorem Lexes.natural {n : Nat} (hn : n < 2 ^ 63) (hrest : Delimited rest) :
    Lexes (Nat.toDigits 10 n ++ rest) rest [.int (Int64.ofInt n)] := by
  have hdigits : ∀ c ∈ Nat.toDigits 10 n, Text.isAsciiDigit c = true :=
    fun _ => Number.isAsciiDigit_of_mem_toDigits
  have hvalue := Number.int64?_toDigits hn
  obtain ⟨d, ds, hds⟩ := List.exists_cons_of_ne_nil (Nat.toDigits_ne_nil (b := 10) (n := n))
  rw [hds] at hdigits hvalue ⊢
  have hd : Text.isAsciiDigit d = true := hdigits d List.mem_cons_self
  have hother : ∀ c ∈ [' ', '\t', '\r', '\x0c', '#', '\\', '\n', '"', '\x27'],
      Text.isAsciiDigit c = false := forall_mem_of_all (by decide)
  have hne {c : Char} (hc : c ∈ [' ', '\t', '\r', '\x0c', '#', '\\', '\n', '"', '\x27']) :
      d ≠ c := by
    rintro rfl
    rw [hother d hc] at hd
    cases hd
  have hvisible : isVisible d = true := by simp [isVisible, hne]
  have hquote : (d = '"' || d = '\x27') = false := by simp [hne]
  have hscan : scanToken d (ds ++ rest) = .ok ⟨.int (Int64.ofInt n), d :: ds, rest⟩ := by
    rw [scanToken, hquote, if_neg Bool.false_ne_true, hd, Bool.true_or, if_pos rfl,
      ← List.cons_append, scanNumeral_digits hdigits hrest]
    simp [Numeral.token, hvalue, Except.map, Scanned.map]
  exact Lexes.token hvisible hscan

/-- A `word` is read up to a character that does not continue it. -/
theorem Lexes.word {word : List Char} (hc : isVisible c = true)
    (hscan : scanToken c (word ++ rest) = .ok (scanWord (c :: (word ++ rest))))
    (hword : ∀ d ∈ c :: word, continuesName d = true)
    (hrest : ∀ d ∈ rest.head?, continuesName d = false) :
    Lexes (c :: (word ++ rest)) rest [wordToken (String.ofList (c :: word))] := by
  have htake : (c :: (word ++ rest)).takeWhile continuesName = c :: word := by
    rw [← List.cons_append, List.takeWhile_append_of_pos hword]
    cases rest with
    | nil => simp
    | cons d rest => simp [hrest d rfl]
  have hdrop : (c :: (word ++ rest)).dropWhile continuesName = rest := by
    rw [← List.cons_append, List.dropWhile_append_of_pos hword]
    cases rest with
    | nil => rfl
    | cons d rest => simp [hrest d rfl]
  have hlex := Lexes.token hc hscan
  rwa [scanWord, htake, hdrop] at hlex

theorem Delimited.not_continuesName (h : Delimited rest) :
    ∀ d ∈ rest.head?, continuesName d = false := by
  have hnot : ∀ c ∈ [',', ':', ']', '\x7d'], continuesName c = false :=
    forall_mem_of_all (by decide)
  exact fun d hd => hnot d (h d hd)

end Stepper
