import Stepper.Token.Scan

/-!
# The text of a number is a number

* `numberToken`: the token of a number, read anew from its characters without the underscores. Such
  a text may turn out to be no number at all.
* `numberToken_scanNumeral`: it does not for the numbers that the lexer finds, and the token is the
  same.
-/

namespace Stepper

/-- The token of a number, from its characters without the underscores. With a fraction or an
exponent it is a float; `malformed` is the fault if it cannot be read as one. -/
def numberToken (malformed : String → SyntaxFault) (s : Scanned Numeral) :
    Except SyntaxFault Token :=
  let text := s.text.filter (· ≠ '_')
  if s.value.fraction.isNone && s.value.exponent.isNone then
    match Number.int64? text with
    | some value => .ok (.int value)
    | none => .error (.integerTooLarge (String.ofList text))
  else
    match Number.float? text with
    | some value => .ok (.float value)
    | none => .error (malformed (String.ofList text))

variable {c : Char} {cs rest digits : List Char}

/-! ## Digits -/

/-- The characters `cs` are decimal digits. -/
def AllDigits (cs : List Char) : Prop :=
  ∀ c ∈ cs, Text.isAsciiDigit c = true

theorem scanDigits_filter (cs : List Char) :
    (scanDigits cs).text.filter (· ≠ '_') = (scanDigits cs).value := by
  have hdigit : Text.isAsciiDigit '_' = false := by decide
  fun_induction scanDigits cs with
  | case1 => rfl
  | case2 c rest h ih =>
    have hc : c ≠ '_' := by
      rintro rfl
      simp [hdigit] at h
    simp [Scanned.map, Scanned.put, hc, ← ih]
  | case3 c rest _ h ih =>
    obtain ⟨rfl, -⟩ : c = '_' ∧ startsWithDigit rest = true := by simpa using h
    simpa [Scanned.put] using ih
  | case4 => rfl

theorem scanDigits_allDigits (cs : List Char) : AllDigits (scanDigits cs).value := by
  unfold AllDigits
  fun_induction scanDigits cs <;> simp_all [Scanned.map, Scanned.put]

theorem scanDigits_value_ne_nil (h : startsWithDigit cs = true) : (scanDigits cs).value ≠ [] := by
  cases cs with
  | nil => cases h
  | cons c rest =>
    simp only [startsWithDigit] at h
    simp [scanDigits, h, Scanned.map, Scanned.put]

/-- Of `digits` and a `rest` that begins with none, nothing but `digits` is read. -/
theorem takeWhile_digits (hdigits : AllDigits digits)
    (hrest : ∀ c ∈ rest.head?, Text.isAsciiDigit c = false) :
    (digits ++ rest).takeWhile Text.isAsciiDigit = digits ∧
      (digits ++ rest).dropWhile Text.isAsciiDigit = rest := by
  rw [List.takeWhile_append_of_pos hdigits, List.dropWhile_append_of_pos hdigits]
  cases rest with
  | nil => simp
  | cons d rest => simp [hrest d rfl]

/-! ## Exponents -/

/-- The text `cs` is that of an exponent: nothing, or a letter and digits with or without a sign. -/
def IsExponent (cs : List Char) (exponent : Int) : Prop :=
  Number.exponentPart? cs = some exponent ∧ ∀ c ∈ cs.head?, c = 'e' ∨ c = 'E'

theorem isExponent_nil : IsExponent [] 0 := ⟨rfl, by simp⟩

/-- Digits carry no sign: `digits` are all that is left. -/
theorem sign_digits (hdigits : AllDigits digits) : Number.sign digits = (false, digits) := by
  unfold Number.sign
  split
  · exact absurd (hdigits _ List.mem_cons_self) (by decide)
  · exact absurd (hdigits _ List.mem_cons_self) (by decide)
  · rfl

theorem sign_scanSign (cs : List Char) (hdigits : AllDigits digits) :
    Number.sign ((scanSign cs).text ++ digits) = ((scanSign cs).value, digits) := by
  unfold scanSign
  repeat' split
  · exact sign_digits hdigits
  · subst_vars; rfl
  · subst_vars; rfl
  · exact sign_digits hdigits

theorem scanSign_filter (cs : List Char) :
    (scanSign cs).text.filter (· ≠ '_') = (scanSign cs).text := by
  unfold scanSign
  repeat' split
  all_goals simp_all

theorem scanExponent_isExponent {s : Scanned Int} (h : scanExponent cs = some s) :
    IsExponent (s.text.filter (· ≠ '_')) s.value := by
  cases cs with
  | nil => cases h
  | cons c rest =>
    simp only [scanExponent] at h
    split at h
    · rename_i hstart
      cases h
      simp only [Bool.and_eq_true, Bool.or_eq_true, decide_eq_true_eq] at hstart
      obtain ⟨hc, hdigit⟩ := hstart
      have hne := scanDigits_value_ne_nil hdigit
      have hall := scanDigits_allDigits (scanSign rest).rest
      have hletter : c ≠ '_' := by rintro rfl; simp at hc
      have htext : (c :: ((scanSign rest).text ++ (scanDigits (scanSign rest).rest).text)).filter
          (· ≠ '_') = c :: ((scanSign rest).text ++ (scanDigits (scanSign rest).rest).value) := by
        rw [List.filter_cons_of_pos (by simpa using hletter), List.filter_append, scanSign_filter,
          scanDigits_filter]
      rw [htext]
      refine ⟨?_, by simpa using hc⟩
      have hdigits : ((scanDigits (scanSign rest).rest).value.isEmpty ||
          !(scanDigits (scanSign rest).rest).value.all Text.isAsciiDigit) = false := by
        simp [List.isEmpty_eq_false_iff.2 hne, List.all_eq_true.2 hall]
      simp only [Number.exponentPart?, sign_scanSign rest hall, hdigits]
      simp [hc]
    · cases h

/-! ## Floats -/

/-- The text of a fraction: `.` and digits, if there is one. -/
def fractionText : Option (List Char) → List Char
  | none => []
  | some digits => '.' :: digits

theorem scanFraction_filter {s : Scanned (List Char)} (h : scanFraction cs = some s) :
    s.text.filter (· ≠ '_') = fractionText (some s.value) ∧ AllDigits s.value := by
  unfold scanFraction at h
  split at h
  · rename_i rest
    cases h
    refine ⟨?_, scanDigits_allDigits rest⟩
    simp only [Scanned.put, fractionText, ← scanDigits_filter rest]
    rfl
  · cases h

/-- Digits, a fraction and an exponent are a float if there is a digit before the exponent:
`decimalFloat` of all the digits, with the exponent lower by those of the fraction. -/
theorem unsignedFloat?_text {whole exponentText : List Char} {fraction : Option (List Char)}
    {exponent : Int} (negative : Bool) (hwhole : AllDigits whole)
    (hfraction : AllDigits (fraction.getD [])) (hexponent : IsExponent exponentText exponent)
    (hne : whole ++ fraction.getD [] ≠ []) :
    Number.unsignedFloat? negative (whole ++ (fractionText fraction ++ exponentText)) =
      some (Number.decimalFloat negative (whole ++ fraction.getD [])
        (exponent - (fraction.getD []).length)) := by
  have hletter : ∀ c ∈ exponentText.head?, Text.isAsciiDigit c = false := by
    intro c hc
    rcases hexponent.2 c hc with rfl | rfl <;> decide
  have hempty : (whole.isEmpty && (fraction.getD []).isEmpty) = false := by
    simpa using hne
  cases fraction with
  | none =>
    obtain ⟨htake, hdrop⟩ := takeWhile_digits hwhole hletter
    have hpoint : ∀ after, exponentText ≠ '.' :: after := by
      rintro after rfl
      rcases hexponent.2 '.' rfl with h | h <;> cases h
    simp only [Option.getD_none, List.isEmpty_nil, Bool.and_true] at hempty
    simp only [Number.unsignedFloat?, fractionText, List.nil_append, htake, hdrop]
    simp [hempty, hexponent.1]
  | some digits =>
    have hpoint : ∀ c ∈ ('.' :: (digits ++ exponentText)).head?, Text.isAsciiDigit c = false := by
      simp
      decide
    obtain ⟨htake, hdrop⟩ := takeWhile_digits hwhole hpoint
    obtain ⟨htake', hdrop'⟩ := takeWhile_digits hfraction hletter
    simp only [Option.getD_some] at hempty htake' hdrop'
    simp only [Number.unsignedFloat?, fractionText, List.cons_append, htake, hdrop, htake', hdrop']
    simp [hempty, hexponent.1]

/-- A text that begins with a digit or `.` carries no sign and is no word like `inf`. -/
theorem float?_of_start (hc : Text.isAsciiDigit c = true ∨ c = '.') :
    Number.float? (c :: cs) = Number.unsignedFloat? false (c :: cs) := by
  have hsign : Number.sign (c :: cs) = (false, c :: cs) := by
    unfold Number.sign
    split
    · rename_i heq; cases heq; exact absurd hc (by decide)
    · rename_i heq; cases heq; exact absurd hc (by decide)
    · rfl
  have hlower : c.toLower = c := by
    rcases hc with hc | rfl
    · simp only [Text.isAsciiDigit, Bool.and_eq_true, decide_eq_true_eq] at hc
      have hle : c.val ≤ 57 := hc.2
      exact dif_neg fun h => absurd (UInt32.le_trans h.1 hle) (by decide)
    · rfl
  have hword : ∀ d word, d ≠ c →
      String.ofList ((c :: cs).map Char.toLower) ≠ String.ofList (d :: word) := by
    intro d word hd heq
    have := String.ofList_injective heq
    rw [List.map_cons, hlower] at this
    exact hd (List.cons.inj this).1.symm
  have hi : 'i' ≠ c := by rintro rfl; revert hc; decide
  have hn : 'n' ≠ c := by rintro rfl; revert hc; decide
  have hinf := hword 'i' "nf".toList hi
  have hinfinity := hword 'i' "nfinity".toList hi
  have hnan := hword 'n' "an".toList hn
  rw [Number.float?, hsign]
  simp only
  rw [if_neg, if_neg]
  · exact hnan
  · simp only [Bool.or_eq_true, decide_eq_true_eq, not_or]
    exact ⟨hinf, hinfinity⟩

theorem float?_text {whole exponentText : List Char} {fraction : Option (List Char)}
    {exponent : Int} (hwhole : AllDigits whole) (hfraction : AllDigits (fraction.getD []))
    (hexponent : IsExponent exponentText exponent) (hne : whole ++ fraction.getD [] ≠ []) :
    Number.float? (whole ++ (fractionText fraction ++ exponentText)) =
      some (Number.decimalFloat false (whole ++ fraction.getD [])
        (exponent - (fraction.getD []).length)) := by
  rw [← unsignedFloat?_text false hwhole hfraction hexponent hne]
  cases whole with
  | cons d whole => exact float?_of_start (.inl (hwhole d List.mem_cons_self))
  | nil =>
    cases fraction with
    | none => exact absurd rfl hne
    | some digits => exact float?_of_start (.inr rfl)

/-! ## Numerals -/

/-- The numeral `n` is spelled by three texts: digits, a fraction and an exponent, and there is a
digit before the exponent. -/
structure Numeral.Spelled (n : Numeral) (wholeText pointText exponentText : List Char) : Prop where
  whole : wholeText.filter (· ≠ '_') = n.whole
  wholeDigits : AllDigits n.whole
  fraction : pointText.filter (· ≠ '_') = fractionText n.fraction
  fractionDigits : AllDigits (n.fraction.getD [])
  exponent : IsExponent (exponentText.filter (· ≠ '_')) (n.exponent.getD 0)
  noExponent : n.exponent = none → exponentText = []
  digit : n.whole ++ n.fraction.getD [] ≠ []

theorem optional_fraction (cs : List Char) :
    (Scanned.optional (scanFraction cs) cs).text.filter (· ≠ '_') =
        fractionText (Scanned.optional (scanFraction cs) cs).value ∧
      AllDigits ((Scanned.optional (scanFraction cs) cs).value.getD []) := by
  cases h : scanFraction cs with
  | none => exact ⟨rfl, nofun⟩
  | some s => exact scanFraction_filter h

theorem optional_exponent (cs : List Char) :
    IsExponent ((Scanned.optional (scanExponent cs) cs).text.filter (· ≠ '_'))
        ((Scanned.optional (scanExponent cs) cs).value.getD 0) ∧
      ((Scanned.optional (scanExponent cs) cs).value = none →
        (Scanned.optional (scanExponent cs) cs).text = []) := by
  cases h : scanExponent cs with
  | none => exact ⟨isExponent_nil, fun _ => rfl⟩
  | some s => exact ⟨scanExponent_isExponent h, nofun⟩

theorem scanNumeral_spelled
    (hstart : (Text.isAsciiDigit c || (c = '.' && startsWithDigit rest)) = true) :
    ∃ whole fraction exponent, (scanNumeral (c :: rest)).text = whole ++ (fraction ++ exponent) ∧
      (scanNumeral (c :: rest)).value.Spelled whole fraction exponent := by
  obtain ⟨hfraction, hfractionDigits⟩ := optional_fraction (scanDigits (c :: rest)).rest
  obtain ⟨hexponent, hnoExponent⟩ := optional_exponent
    (Scanned.optional (scanFraction (scanDigits (c :: rest)).rest)
      (scanDigits (c :: rest)).rest).rest
  refine ⟨_, _, _, rfl, scanDigits_filter _, scanDigits_allDigits _, hfraction, hfractionDigits,
    hexponent, hnoExponent, ?_⟩
  by_cases hdigit : Text.isAsciiDigit c = true
  · have := @scanDigits_value_ne_nil (c :: rest) hdigit
    simp [scanNumeral, this]
  · simp only [hdigit, Bool.false_or, Bool.and_eq_true, decide_eq_true_eq] at hstart
    obtain ⟨rfl, hdigits⟩ := hstart
    have := scanDigits_value_ne_nil hdigits
    have hnone : scanDigits ('.' :: rest) = ⟨[], [], '.' :: rest⟩ := by simp [scanDigits, hdigit]
    simp [scanNumeral, hnone, scanFraction, Scanned.optional, Scanned.map, Scanned.put, this]

/-- The numbers that the lexer finds are numbers: `malformed` never comes up. -/
theorem numberToken_scanNumeral (malformed : String → SyntaxFault)
    (hstart : (Text.isAsciiDigit c || (c = '.' && startsWithDigit rest)) = true) :
    numberToken malformed (scanNumeral (c :: rest)) = (scanNumeral (c :: rest)).value.token := by
  obtain ⟨whole, fraction, exponent, htext, h⟩ := scanNumeral_spelled hstart
  generalize scanNumeral (c :: rest) = s at htext h ⊢
  have hfilter : s.text.filter (· ≠ '_') =
      s.value.whole ++ (fractionText s.value.fraction ++ exponent.filter (· ≠ '_')) := by
    rw [htext, List.filter_append, List.filter_append, h.whole, h.fraction]
  unfold numberToken Numeral.token
  rw [hfilter]
  split
  · rename_i hint
    simp only [Bool.and_eq_true, Option.isNone_iff_eq_none] at hint
    have hwhole : s.value.whole ++ (fractionText none ++ [].filter (· ≠ '_')) = s.value.whole := by
      simp [fractionText]
    rewrite [h.noExponent hint.2, hint.1, hwhole]
    rfl
  · dsimp only
    rw [float?_text h.wholeDigits h.fractionDigits h.exponent h.digit]

end Stepper
