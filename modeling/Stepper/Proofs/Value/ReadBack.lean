import Stepper.Proofs.Value.Faithful

/-!
# What the texts of numbers and strings are read back as

* `Text.Evaluates`: a text that is the expression of a value. It is that of one value only
  (`Text.Evaluates.unique`).
* `Text.reread_eq_self_iff`: the strings that are read back as they are.
* `Value.ReadsBackAs`: the text of a value is the expression of a value.
* `Value.scalars_read_back`: every number but the smallest is read back as it is, and every string
  is read back as one, with an escape in place of each control character that has none of its own.
-/

namespace Stepper

namespace Text

/-! ## Strings -/

theorem isQuotable_hexDigit : ∀ n < 16, IsQuotable (hexDigit n) := by decide

theorem isQuotable_rereadChar (c : Char) : ∀ d ∈ rereadChar c, IsQuotable d := by
  by_cases hc : IsQuotable c
  · rw [rereadChar_of_isQuotable hc]
    exact List.forall_mem_singleton.2 hc
  · have hsmall : c.toNat < 256 := by
      apply Nat.lt_of_not_le
      intro hlarge
      exact hc fun hcontrol => by omega
    rw [rereadChar, if_neg hc, hexPair]
    simp only [List.forall_mem_cons]
    exact ⟨by decide, by decide, isQuotable_hexDigit _ (by omega), isQuotable_hexDigit _ (by omega),
      List.forall_mem_nil _⟩

/-- What is read back, `reread s`, has no control characters but those with escapes of their own. -/
theorem literal_reread (s : String) : (Scalar.str (reread s)).Literal := by
  intro d hd
  rw [reread, String.toList_ofList, List.mem_flatMap] at hd
  obtain ⟨c, -, hd⟩ := hd
  exact isQuotable_rereadChar c d hd

/-- The first escape by number in `text` is not the character that it stands for. -/
theorem isQuotable_of_flatMap_rereadChar {text : List Char} (h : text.flatMap rereadChar = text) :
    ∀ c ∈ text, IsQuotable c := by
  induction text with
  | nil => exact List.forall_mem_nil _
  | cons c text ih =>
    rw [List.flatMap_cons] at h
    by_cases hc : IsQuotable c
    · rw [rereadChar_of_isQuotable hc] at h
      exact List.forall_mem_cons.2 ⟨hc, ih (List.cons.inj h).2⟩
    · rw [rereadChar, if_neg hc] at h
      -- A character that comes back as an escape by number begins with a backslash, and a backslash
      -- is quotable.
      have hslash : '\\' = c := (List.cons.inj h).1
      exact absurd (hslash ▸ by decide) hc

/-- A string `s` is read back as it is if it has no other control characters (`IsQuotable`). -/
theorem reread_eq_self_iff {s : String} : reread s = s ↔ ∀ c ∈ s.toList, IsQuotable c := by
  constructor
  · intro h
    have htext := congrArg String.toList h
    rw [reread, String.toList_ofList] at htext
    exact isQuotable_of_flatMap_rereadChar htext
  · exact reread_eq_self

/-! ## Evaluation -/

/-- The program that assigns `text` to `it` runs to its end, under every `hook` that never aborts,
and binds the name to `v`. -/
def Evaluates (text : String) (v : Value) : Prop :=
  ∃ p, Program.ofSource ("it = " ++ text) = .ok p ∧
    ∀ {σ : Type} (hook : Pause → StateM σ Reply) (t : σ),
      (∀ pause t, (hook pause t).1.answer ≠ .abort) →
        ∃ m, p.Ends hook t .completed m ∧ m.stack.globals.get? "it" = some v

theorem Evaluates.unique {text : String} {v w : Value} (hv : Evaluates text v)
    (hw : Evaluates text w) : v = w := by
  obtain ⟨p, hsource, hv⟩ := hv
  obtain ⟨p', hsource', hw⟩ := hw
  obtain rfl : p = p' := Except.ok.inj (hsource.symm.trans hsource')
  obtain ⟨m, hends, hbound⟩ := hv watching () fun _ _ => watching_ne_abort
  obtain ⟨m', hends', hbound'⟩ := hw watching () fun _ _ => watching_ne_abort
  obtain ⟨-, rfl⟩ := hends.unique hends'
  exact Option.some.inj (hbound.symm.trans hbound')

/-- A `text` with the tokens of the expression of a scalar `k` evaluates to it. -/
theorem evaluates_of_lexes {k : Scalar} {text : String} (hk : k.Literal)
    (hlex : Lexes text.toList [] k.expr.tokens) : Evaluates text k.value := by
  have hd : (Datum.scalar k).Literal 0 := .scalar hk
  obtain ⟨p, e, loc, hsource, hbody, he⟩ := Program.ofSource_assign_of_tokens hd (by decide) hlex
  refine ⟨p, hsource, fun hook t hhook => ?_⟩
  obtain ⟨m, v, hends, hbound, hv⟩ := Program.ends_assign hd he hbody hook t hhook
  cases hv
  exact ⟨m, hends, hbound⟩

end Text

namespace Value

/-- In every store the text of `v` is an expression for `w`. -/
def ReadsBackAs (v w : Value) : Prop :=
  ∃ text, (∀ s : Store, s.repr v = .ok text) ∧ Text.Evaluates text w

theorem ReadsBackAs.unique {v w w' : Value} (h : v.ReadsBackAs w) (h' : v.ReadsBackAs w') :
    w = w' := by
  obtain ⟨text, hrepr, hw⟩ := h
  obtain ⟨text', hrepr', hw'⟩ := h'
  obtain rfl : text = text' := Except.ok.inj ((hrepr .empty).symm.trans (hrepr' .empty))
  exact hw.unique hw'

theorem readsBackAs_int {n : Int64} (hn : n ≠ Int64.minValue) : (int n).ReadsBackAs (int n) := by
  have hlex := Scalar.lexes_int hn delimited_nil
  rw [List.append_nil] at hlex
  exact ⟨toString n.toInt, fun _ => rfl, Text.evaluates_of_lexes (k := .int n) hn hlex⟩

/-- The text of `Int64.minValue` is a sign in front of a literal that is too large. -/
theorem not_readsBackAs_minValue {w : Value} : ¬ (int Int64.minValue).ReadsBackAs w := by
  rintro ⟨text, hrepr, p, hsource, -⟩
  obtain rfl : "-9223372036854775808" = text := Except.ok.inj (hrepr .empty)
  -- The digits after the sign are those of `2 ^ 63`, one more than a literal may be.
  have hfails : (Program.ofSource ("it = " ++ "-9223372036854775808")).toBool = false := by cbv
  rw [hsource] at hfails
  cases hfails

theorem readsBackAs_str (s : String) : (str s).ReadsBackAs (str (Text.reread s)) := by
  have hlex : Lexes ((Text.literal s).toList ++ []) [] [.str (Text.reread s)] := Lexes.literal s
  rw [List.append_nil] at hlex
  exact ⟨Text.literal s, fun _ => rfl,
    Text.evaluates_of_lexes (k := .str (Text.reread s)) (Text.literal_reread s) hlex⟩

/-- The texts of numbers and strings are literals. A number `n` is read back as it is, unless it is
`Int64.minValue`. A string `s` is read back as `Text.reread s`: the control characters in it, but
for tab, line feed and carriage return, come back as the characters of their escapes by number. So
it is read back as it is if it has no such characters (`IsQuotable`), and only then. -/
theorem scalars_read_back :
    (∀ n : Int64, (int n).ReadsBackAs (int n) ↔ n ≠ Int64.minValue) ∧
    (∀ s : String, (str s).ReadsBackAs (str (Text.reread s))) ∧
    ∀ s : String, (str s).ReadsBackAs (str s) ↔ ∀ c ∈ s.toList, IsQuotable c := by
  refine ⟨fun n => ⟨?_, readsBackAs_int⟩, readsBackAs_str, fun s => ⟨fun h => ?_, fun h => ?_⟩⟩
  · rintro h rfl
    exact not_readsBackAs_minValue h
  · have hsame : str (Text.reread s) = str s := (readsBackAs_str s).unique h
    exact Text.reread_eq_self_iff.1 (str.inj hsame)
  · have hread := readsBackAs_str s
    rwa [Text.reread_eq_self_iff.2 h] at hread

/-- The smallest number but one, a text with both quotes and a backslash, and one with a control
character. -/
theorem scalars_read_back_quotes :
    (int (-9223372036854775807)).ReadsBackAs (int (-9223372036854775807)) ∧
      (str "it's \t\"\\x\"").ReadsBackAs (str "it's \t\"\\x\"") ∧
      (str "\x1b").ReadsBackAs (str "\\x1b") := by
  obtain ⟨hint, hreread, hstr⟩ := scalars_read_back
  have hescape : Text.reread "\x1b" = "\\x1b" := by decide
  exact ⟨(hint _).2 (by decide), (hstr _).2 (forall_mem_of_all (by decide)),
    hescape ▸ hreread "\x1b"⟩

/-- The smallest number and a text with a control character are not read back as they are. -/
theorem not_all_scalars_read_back :
    ¬ (int Int64.minValue).ReadsBackAs (int Int64.minValue) ∧
      ¬ (str "\x1b").ReadsBackAs (str "\x1b") := by
  refine ⟨not_readsBackAs_minValue, fun h => ?_⟩
  have hsame : str (Text.reread "\x1b") = str "\x1b" := (readsBackAs_str "\x1b").unique h
  exact absurd (str.inj hsame) (by decide)

end Value

end Stepper
