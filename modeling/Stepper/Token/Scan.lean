import Stepper.Number.Reading
import Stepper.SyntaxError
import Stepper.Token.Scanned

/-!
# Scanning one token

* `skipBlanks`: blanks, comments and joined lines between tokens.
* `scanToken`: the token at the start of a text: a string, a number, a word, or the longest symbol
  there.
* `scanToken_all`, `scanToken_text_ne_nil`: a token is read from at least one character, and what
  it was read from and the rest are the whole text.
-/

namespace Stepper

/-! ## Between tokens -/

/-- Blanks, comments and joined lines from here to the next token or line end. Where `inComment`,
everything up to the line end is skipped. -/
def skipBlanks (inComment : Bool) : List Char → Scanned Unit
  | [] => ⟨(), [], []⟩
  | c :: rest =>
    if inComment then
      if c = '\n' then ⟨(), [], c :: rest⟩ else (skipBlanks true rest).put c
    else if c = ' ' || c = '\t' || c = '\r' || c = '\x0c' then (skipBlanks false rest).put c
    else if c = '#' then (skipBlanks true rest).put c
    else if c = '\\' then
      match rest with
      | '\n' :: rest => ((skipBlanks false rest).put '\n').put c
      | '\r' :: '\n' :: rest => (((skipBlanks false rest).put '\n').put '\r').put c
      | _ => ⟨(), [], c :: rest⟩
    else ⟨(), [], c :: rest⟩

/-- The characters up to and including the next line feed. -/
def restOfLine : List Char → Scanned Unit
  | [] => ⟨(), [], []⟩
  | c :: rest => if c = '\n' then ⟨(), [c], rest⟩ else (restOfLine rest).put c

/-! ## Literals -/

/-- What `c` stands for after a backslash: an escaped line feed for nothing, and a character without
a meaning of its own for itself and the backslash. -/
def unescape (c : Char) : List Char :=
  if c = 'n' then ['\n']
  else if c = 't' then ['\t']
  else if c = 'r' then ['\r']
  else if c = '0' then ['\x00']
  else if c = '\\' || c = '\x27' || c = '"' then [c]
  else if c = '\n' then []
  else ['\\', c]

/-- The rest of a string after its opening `quote`, on one line. -/
def scanString (quote : Char) : List Char → Option (Scanned (List Char))
  | [] => none
  | c :: rest =>
    if c = quote then some ⟨[], [c], rest⟩
    else if c = '\n' then none
    else if c = '\\' then
      match rest with
      | [] => none
      | e :: rest => (scanString quote rest).map fun s => ((s.map (unescape e ++ ·)).put e).put c
    else (scanString quote rest).map fun s => (s.map (c :: ·)).put c

/-- Whether the text starts with a digit. -/
def startsWithDigit : List Char → Bool
  | [] => false
  | c :: _ => Text.isAsciiDigit c

/-- Digits, among which a single `_` may stand; the result leaves it out. -/
def scanDigits : List Char → Scanned (List Char)
  | [] => ⟨[], [], []⟩
  | c :: rest =>
    if Text.isAsciiDigit c then ((scanDigits rest).map (c :: ·)).put c
    else if c = '_' && startsWithDigit rest then (scanDigits rest).put c
    else ⟨[], [], c :: rest⟩

/-- The fraction of a number: a `.` and digits, if there is a point. -/
def scanFraction : List Char → Option (Scanned (List Char))
  | '.' :: rest => some ((scanDigits rest).put '.')
  | _ => none

/-- A sign, if there is one; `true` stands for minus. -/
def scanSign : List Char → Scanned Bool
  | [] => ⟨false, [], []⟩
  | c :: rest =>
    if c = '+' then ⟨false, [c], rest⟩
    else if c = '-' then ⟨true, [c], rest⟩
    else ⟨false, [], c :: rest⟩

/-- The exponent of a number: `e`, an optional sign and at least one digit. -/
def scanExponent : List Char → Option (Scanned Int)
  | [] => none
  | c :: rest =>
    let sign := scanSign rest
    let digits := scanDigits sign.rest
    if (c = 'e' || c = 'E') && startsWithDigit sign.rest then
      some ⟨Number.exponentOf sign.value digits.value, c :: (sign.text ++ digits.text), digits.rest⟩
    else none

/-- A number as it is written: its digits, those after its point, and its `exponent`. -/
structure Numeral where
  whole : List Char
  fraction : Option (List Char)
  exponent : Option Int

/-- The number at the start of `cs`: digits, a fraction and an exponent. -/
def scanNumeral (cs : List Char) : Scanned Numeral :=
  let whole := scanDigits cs
  let fraction := Scanned.optional (scanFraction whole.rest) whole.rest
  let exponent := Scanned.optional (scanExponent fraction.rest) fraction.rest
  ⟨⟨whole.value, fraction.value, exponent.value⟩, whole.text ++ (fraction.text ++ exponent.text),
    exponent.rest⟩

/-- The token of `n`. Without a fraction and an exponent it is an integer, which must fit in 64
bits. -/
def Numeral.token (n : Numeral) : Except SyntaxFault Token :=
  if n.fraction.isNone && n.exponent.isNone then
    match Number.int64? n.whole with
    | some value => .ok (.int value)
    | none => .error (.integerTooLarge (String.ofList n.whole))
  else
    let fraction := n.fraction.getD []
    .ok (.float (Number.decimalFloat false (n.whole ++ fraction)
      (n.exponent.getD 0 - fraction.length)))

/-! ## Names and symbols -/

/-- Whether `c` may start a name. -/
def startsName (c : Char) : Bool :=
  Text.isAlphabetic c || c = '_'

/-- Whether `c` may continue a name. -/
def continuesName (c : Char) : Bool :=
  Text.isAlphanumeric c || c = '_'

/-- The token of `word`: a keyword or a name. -/
def wordToken (word : String) : Token :=
  match Keyword.ofText? word with
  | some k => .keyword k
  | none => .name word

/-- A word: the longest run of characters of `cs` that may continue a name. -/
def scanWord (cs : List Char) : Scanned Token :=
  let word := cs.takeWhile continuesName
  ⟨wordToken (String.ofList word), word, cs.dropWhile continuesName⟩

namespace Symbol

/-- The symbols that start with `c`, the longest first. -/
def startingWith (c : Char) : List Symbol :=
  if c = '+' then [plusEqual, plus]
  else if c = '-' then [minusEqual, minus]
  else if c = '*' then [starStar, starEqual, star]
  else if c = '/' then [slashSlashEqual, slashSlash, slashEqual, slash]
  else if c = '%' then [percentEqual, percent]
  else if c = '=' then [equalEqual, equal]
  else if c = '<' then [lessEqual, less]
  else if c = '>' then [greaterEqual, greater]
  else if c = '!' then [notEqual]
  else if c = '(' then [leftParen]
  else if c = ')' then [rightParen]
  else if c = '[' then [leftBracket]
  else if c = ']' then [rightBracket]
  else if c = '\x7b' then [leftBrace]
  else if c = '\x7d' then [rightBrace]
  else if c = ',' then [comma]
  else if c = ':' then [colon]
  else if c = '.' then [dot]
  else if c = ';' then [semicolon]
  else []

end Symbol

/-- The longest symbol at the start of `c :: rest`. -/
def scanSymbol? (c : Char) (rest : List Char) : Option (Scanned Symbol) :=
  ((Symbol.startingWith c).find? fun s => s.text.toList.isPrefixOf (c :: rest)).map fun s =>
    ⟨s, s.text.toList, (c :: rest).drop s.text.toList.length⟩

/-- The token at the start of `c :: rest`. -/
def scanToken (c : Char) (rest : List Char) : Except SyntaxFault (Scanned Token) :=
  if c = '"' || c = '\x27' then
    match scanString c rest with
    | some s => .ok ((s.map fun value => .str (String.ofList value)).put c)
    | none => .error .unterminatedString
  else if Text.isAsciiDigit c || (c = '.' && startsWithDigit rest) then
    let s := scanNumeral (c :: rest)
    s.value.token.map fun token => s.map fun _ => token
  else if startsName c then .ok (scanWord (c :: rest))
  else
    match scanSymbol? c rest with
    | some s => .ok (s.map .symbol)
    | none => .error (if c = '!' then .loneExclamation else .strayCharacter c)

/-! ## Scanners lose nothing -/

@[simp] theorem skipBlanks_all (inComment : Bool) (cs : List Char) :
    (skipBlanks inComment cs).all = cs := by
  -- on the length: a joined line takes more than one character at once
  induction hn : cs.length using Nat.strongRecOn generalizing inComment cs with
  | ind n ih =>
    have hrest {b : Bool} {rest : List Char} (h : rest.length < n) :
        (skipBlanks b rest).all = rest := ih _ h b rest rfl
    unfold skipBlanks
    repeat' split
    all_goals simp (disch := grind) [*]

@[simp] theorem restOfLine_all (cs : List Char) : (restOfLine cs).all = cs := by
  fun_induction restOfLine cs <;> simp_all

theorem scanString_all {quote : Char} {cs : List Char} {s : Scanned (List Char)}
    (h : scanString quote cs = some s) : s.all = cs := by
  fun_induction scanString quote cs generalizing s with
  | case1 => simp at h
  | case2 rest => simp at h; subst h; simp
  | case3 => simp at h
  | case4 => simp at h
  | case5 _ _ e rest ih =>
    obtain ⟨t, ht, rfl⟩ := Option.map_eq_some_iff.1 h
    simp [ih ht]
  | case6 c rest _ _ _ ih =>
    obtain ⟨t, ht, rfl⟩ := Option.map_eq_some_iff.1 h
    simp [ih ht]

@[simp] theorem scanDigits_all (cs : List Char) : (scanDigits cs).all = cs := by
  fun_induction scanDigits cs <;> simp_all

@[simp] theorem scanSign_all (cs : List Char) : (scanSign cs).all = cs := by
  unfold scanSign
  repeat' split
  all_goals simp

theorem scanFraction_all {cs : List Char} {s : Scanned (List Char)}
    (h : scanFraction cs = some s) : s.all = cs := by
  unfold scanFraction at h
  split at h
  · simp only [Option.some.injEq] at h
    simp [← h]
  · simp at h

theorem scanExponent_all {cs : List Char} {s : Scanned Int}
    (h : scanExponent cs = some s) : s.all = cs := by
  cases cs with
  | nil => simp [scanExponent] at h
  | cons c rest =>
    simp only [scanExponent] at h
    split at h
    · simp only [Option.some.injEq] at h
      have sign := scanSign_all rest
      have digits := scanDigits_all (scanSign rest).rest
      simp only [Scanned.all] at sign digits
      simp [← h, Scanned.all, digits, sign]
    · simp at h

@[simp] theorem scanNumeral_all (cs : List Char) : (scanNumeral cs).all = cs := by
  have whole := scanDigits_all cs
  have fraction := Scanned.all_optional (@scanFraction_all (scanDigits cs).rest)
  have exponent := Scanned.all_optional (@scanExponent_all
    (Scanned.optional (scanFraction (scanDigits cs).rest) (scanDigits cs).rest).rest)
  simp only [Scanned.all] at whole fraction exponent
  simp [scanNumeral, Scanned.all, exponent, fraction, whole]

@[simp] theorem scanWord_all (cs : List Char) : (scanWord cs).all = cs :=
  List.takeWhile_append_dropWhile

theorem scanSymbol?_all {c : Char} {rest : List Char} {s : Scanned Symbol}
    (h : scanSymbol? c rest = some s) : s.all = c :: rest := by
  obtain ⟨symbol, found, rfl⟩ := Option.map_eq_some_iff.1 h
  have := List.find?_some found
  obtain ⟨after, ha⟩ := List.isPrefixOf_iff_prefix.1 this
  simp [Scanned.all, ← ha]

/-- The result `r.map f` is an answer only where `r` is one. -/
theorem ok_of_map_eq_ok {f : α → β} {r : Except ε α} {b : β} (h : r.map f = .ok b) :
    ∃ a, r = .ok a ∧ f a = b := by
  cases r with
  | error => simp [Except.map] at h
  | ok a => exact ⟨a, rfl, by simpa [Except.map] using h⟩

theorem scanToken_all {c : Char} {rest : List Char} {s : Scanned Token}
    (h : scanToken c rest = .ok s) : s.all = c :: rest := by
  unfold scanToken at h
  split at h
  · split at h
    · rename_i found
      cases h
      simp [scanString_all found]
    · simp at h
  · split at h
    · obtain ⟨token, -, rfl⟩ := ok_of_map_eq_ok h
      simp
    · split at h
      · cases h
        simp
      · split at h
        · rename_i found
          cases h
          simp [scanSymbol?_all found]
        · simp at h

/-- A word takes its first character `c`. -/
theorem scanWord_text_ne_nil {c : Char} {rest : List Char} (h : startsName c = true) :
    (scanWord (c :: rest)).text ≠ [] := by
  have : continuesName c = true := by
    simp only [startsName, continuesName, Text.isAlphanumeric, Bool.or_eq_true] at h ⊢
    exact h.imp_left .inl
  simp [scanWord, this]

theorem scanDigits_text_ne_nil {cs : List Char} (h : startsWithDigit cs = true) :
    (scanDigits cs).text ≠ [] := by
  cases cs with
  | nil => simp [startsWithDigit] at h
  | cons c rest =>
    simp only [startsWithDigit] at h
    simp [scanDigits, h, Scanned.put]

theorem scanNumeral_text_ne_nil {c : Char} {rest : List Char}
    (h : (Text.isAsciiDigit c || (c = '.' && startsWithDigit rest)) = true) :
    (scanNumeral (c :: rest)).text ≠ [] := by
  cases hc : Text.isAsciiDigit c with
  | true =>
    have := @scanDigits_text_ne_nil (c :: rest) (by simpa [startsWithDigit] using hc)
    simp [scanNumeral, this]
  | false =>
    simp only [hc, Bool.false_or, Bool.and_eq_true, decide_eq_true_eq] at h
    obtain ⟨rfl, -⟩ := h
    simp [scanNumeral, scanDigits, hc, scanFraction, Scanned.optional, Scanned.map, Scanned.put]

theorem Symbol.text_ne_nil (s : Symbol) : s.text.toList ≠ [] := by
  cases s <;> decide

theorem scanToken_text_ne_nil {c : Char} {rest : List Char} {s : Scanned Token}
    (h : scanToken c rest = .ok s) : s.text ≠ [] := by
  unfold scanToken at h
  split at h
  · split at h
    · cases h
      simp [Scanned.put]
    · simp at h
  · split at h
    · rename_i digit
      obtain ⟨token, -, rfl⟩ := ok_of_map_eq_ok h
      exact scanNumeral_text_ne_nil digit
    · split at h
      · rename_i starts
        cases h
        exact scanWord_text_ne_nil starts
      · split at h
        · rename_i found
          cases h
          obtain ⟨symbol, -, rfl⟩ := Option.map_eq_some_iff.1 found
          exact symbol.text_ne_nil
        · simp at h

theorem scanToken_length {c : Char} {rest : List Char} {s : Scanned Token}
    (h : scanToken c rest = .ok s) : s.rest.length < (c :: rest).length :=
  Scanned.length_lt (scanToken_all h) (scanToken_text_ne_nil h)

end Stepper
