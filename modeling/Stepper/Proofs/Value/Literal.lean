import Stepper.Proofs.Expr.Precedence
import Stepper.Proofs.Token.Lexing
import Stepper.Proofs.Value.Datum

/-!
# The text of a tree is an expression for it

* `Datum.Literal.lexes`: the lexer finds the tokens of the expression of a tree in its text.
-/

namespace Stepper

variable {rest : List Char}

/-! ## Tokens -/

theorem wordToken_of_keyword {word : String} {k : Keyword} (h : Keyword.ofText? word = some k) :
    wordToken word = .keyword k := by
  rw [wordToken, h]

/-- A keyword `k` is read up to a separator. -/
theorem Lexes.keyword {c : Char} {word : List Char} {k : Keyword} (hc : isVisible c = true)
    (hscan : scanToken c (word ++ rest) = .ok (scanWord (c :: (word ++ rest))))
    (hword : ∀ d ∈ c :: word, continuesName d = true)
    (hk : Keyword.ofText? (String.ofList (c :: word)) = some k) (hrest : Delimited rest) :
    Lexes (c :: (word ++ rest)) rest [.keyword k] := by
  have hlex := Lexes.word hc hscan hword hrest.not_continuesName
  rwa [wordToken_of_keyword hk] at hlex

/-- The minus sign in front of `cs`, which does not make it `-=`. -/
theorem Lexes.minus {cs : List Char} (hcs : ∀ c ∈ cs.head?, c ≠ '=') :
    Lexes ('-' :: cs) cs [.symbol .minus] := by
  refine Lexes.symbol (by decide) ?_
  have hupdate : Symbol.minusEqual.text.toList.isPrefixOf ('-' :: cs) = false := by
    cases cs with
    | nil => rfl
    | cons c cs =>
      rw [show Symbol.minusEqual.text.toList = ['-', '='] by decide, List.isPrefixOf_cons_cons_self,
        List.isPrefixOf_cons_cons, beq_false_of_ne (hcs c rfl).symm, Bool.false_and]
  have hminus : Symbol.minus.text.toList.isPrefixOf ('-' :: cs) = true := rfl
  have hsymbol : scanSymbol? '-' cs = some ⟨.minus, ['-'], cs⟩ := by
    rw [scanSymbol?, show Symbol.startingWith '-' = [.minusEqual, .minus] from rfl,
      List.find?_cons_of_neg (by simp [hupdate])]
    rfl
  unfold scanToken
  rw [hsymbol]
  rfl

namespace Scalar

theorem lexes_int {n : Int64} (hn : n ≠ Int64.minValue) (hrest : Delimited rest) :
    Lexes ((toString n.toInt).toList ++ rest) rest (int n).expr.tokens := by
  have hmin : n.toInt ≠ -2 ^ 63 := fun h => hn (Int64.toInt_inj.1 h)
  have hlow := Int64.le_toInt n
  have hhigh := Int64.toInt_lt n
  rw [expr_int, Int.toString_eq_repr]
  have hval : Int64.ofInt n.toInt = n := Int64.ofInt_toInt n
  have hneg : n < 0 ↔ n.toInt < 0 := Int64.lt_iff_toInt_lt
  generalize n.toInt = z at *
  -- A negative number is `-` and the digits of its absolute value, which must have 63 bits.
  cases z with
  | ofNat m =>
    have hpos : ¬ n < 0 := by rw [hneg]; exact Int.not_lt.2 (Int.natCast_nonneg m)
    have hm : m < 2 ^ 63 := by
      have : (m : Int) < 2 ^ 63 := hhigh
      omega
    have hlex := Lexes.natural hm hrest
    rw [← Nat.toList_repr] at hlex
    rw [if_neg hpos, ← hval]
    exact hlex
  | negSucc m =>
    have hm : m + 1 < 2 ^ 63 := by omega
    have hnum : Int64.ofInt (m + 1 : Nat) = -n := by
      rw [← hval, ← Int64.ofInt_neg]
      rfl
    have hlex := Lexes.natural hm hrest
    rw [hnum] at hlex
    rw [if_pos (hneg.2 (Int.negSucc_lt_zero m))]
    have htext : (Int.repr (Int.negSucc m)).toList = '-' :: Nat.toDigits 10 (m + 1) := by
      rw [Int.repr]
      simp [Nat.toList_repr]
    rw [htext]
    refine Lexes.append (Lexes.minus fun c hc => ?_) hlex
    have hdigit : Text.isAsciiDigit c = true := by
      obtain ⟨d, ds, hds⟩ := List.exists_cons_of_ne_nil (Nat.toDigits_ne_nil (b := 10) (n := m + 1))
      rw [hds] at hc
      obtain rfl : d = c := Option.some.inj hc
      exact Number.isAsciiDigit_of_mem_toDigits (hds ▸ List.mem_cons_self)
    rintro rfl
    cases hdigit

theorem lexes {k : Scalar} (hk : k.Literal) (hrest : Delimited rest) :
    Lexes (k.value.scalarText.toList ++ rest) rest k.expr.tokens := by
  cases k with
  | none =>
    have hlex : Lexes ('N' :: (['o', 'n', 'e'] ++ rest)) rest [.keyword .noneWord] :=
      Lexes.keyword (by decide) rfl (forall_mem_of_all (by decide)) (by decide) hrest
    rwa [show none.value.scalarText.toList = ['N', 'o', 'n', 'e'] by decide]
  | bool b =>
    cases b with
    | false =>
      have hlex : Lexes ('F' :: (['a', 'l', 's', 'e'] ++ rest)) rest [.keyword .falseWord] :=
        Lexes.keyword (by decide) rfl (forall_mem_of_all (by decide)) (by decide) hrest
      rwa [show (bool false).value.scalarText.toList = ['F', 'a', 'l', 's', 'e'] by decide]
    | true =>
      have hlex : Lexes ('T' :: (['r', 'u', 'e'] ++ rest)) rest [.keyword .trueWord] :=
        Lexes.keyword (by decide) rfl (forall_mem_of_all (by decide)) (by decide) hrest
      rwa [show (bool true).value.scalarText.toList = ['T', 'r', 'u', 'e'] by decide]
  | str s =>
    have hquotable : ∀ c ∈ s.toList, IsQuotable c := hk
    have hlex : Lexes ((Text.literal s).toList ++ rest) rest _ := Lexes.literal s
    rw [Text.reread_eq_self hquotable] at hlex
    exact hlex
  | int n => exact lexes_int hk hrest

end Scalar

/-- The parts `as` with commas between them are read part by part. -/
theorem Lexes.separated {as : List α} {text : α → List Char} {ts : α → List Token}
    (h : ∀ a ∈ as, ∀ {rest}, Delimited rest → Lexes (text a ++ rest) rest (ts a))
    (hrest : Delimited rest) :
    Lexes (List.intercalate [',', ' '] (as.map text) ++ rest) rest (Expr.commas (as.map ts)) := by
  induction as with
  | nil => exact .nil
  | cons a as ih =>
    cases as with
    | nil =>
      have hlex := h a List.mem_cons_self hrest
      simpa [List.intercalate, Expr.commas] using hlex
    | cons b as =>
      have hmore := ih fun a ha => h a (List.mem_cons_of_mem _ ha)
      generalize hmoreText : List.intercalate [',', ' '] ((b :: as).map text) = more at hmore
      have hcomma : Delimited (',' :: ' ' :: (more ++ rest)) := by simp [Delimited]
      have htext : List.intercalate [',', ' '] ((a :: b :: as).map text) ++ rest =
          text a ++ ',' :: ' ' :: (more ++ rest) := by
        rw [← hmoreText]
        simp [List.intercalate]
      have htokens : Expr.commas ((a :: b :: as).map ts) =
          ts a ++ ([.symbol .comma] ++ ([] ++ Expr.commas ((b :: as).map ts))) := by
        simp [Expr.commas, List.intercalate]
      rw [htext, htokens]
      exact (h a List.mem_cons_self hcomma).append
        (Lexes.append (Lexes.symbol (by decide) rfl) (Lexes.append .blank hmore))

namespace Datum

/-- The lexer finds the tokens of the expression of a tree `d` in its text. -/
theorem Literal.lexes {depth : Nat} {d : Datum} (hd : d.Literal depth) (hrest : Delimited rest) :
    Lexes (d.text.toList ++ rest) rest d.expr.tokens := by
  induction hd generalizing rest with
  | scalar hk => exact Scalar.lexes hk hrest
  | @list depth items _ ih =>
    have hclose : Delimited (']' :: rest) := by simp [Delimited]
    have hitems : Lexes
        (List.intercalate [',', ' '] (items.map fun d => d.text.toList) ++ ']' :: rest)
        (']' :: rest) (Expr.commas (items.map fun d => d.expr.tokens)) :=
      Lexes.separated ih hclose
    have htext : (Datum.list items).text.toList ++ rest =
        '[' :: (List.intercalate [',', ' '] (items.map fun d => d.text.toList) ++ ']' :: rest) := by
      simp [text, itemTexts_eq_map, String.toList_intercalate, Function.comp_def]
    have htokens : (Datum.list items).expr.tokens = [.symbol .leftBracket] ++
        (Expr.commas (items.map fun d => d.expr.tokens) ++ [.symbol .rightBracket]) := by
      rw [expr, Expr.tokens, Expr.itemTokens_eq_map, itemExprs_eq_map, List.map_map]
      rfl
    rw [htext, htokens]
    exact Lexes.append (Lexes.symbol (by decide) rfl)
      (hitems.append (Lexes.symbol (by decide) rfl))
  | @dict depth entries hkeys _ _ ih =>
    have hclose : Delimited ('\x7d' :: rest) := by simp [Delimited]
    have hentry : ∀ entry ∈ entries, ∀ {rest}, Delimited rest →
        Lexes (entry.1.value.scalarText.toList ++ ':' :: ' ' :: entry.2.text.toList ++ rest) rest
          (entry.1.expr.tokens ++ .symbol .colon :: entry.2.expr.tokens) := by
      intro entry hmem rest hrest
      have hcolon : Delimited (':' :: ' ' :: (entry.2.text.toList ++ rest)) := by simp [Delimited]
      rw [List.append_assoc]
      exact (Scalar.lexes (hkeys entry hmem) hcolon).append
        (Lexes.append (Lexes.symbol (by decide) rfl) (Lexes.append .blank (ih entry hmem hrest)))
    have hentries := Lexes.separated hentry hclose
    have htext : (Datum.dict entries).text.toList ++ rest =
        '\x7b' :: (List.intercalate [',', ' '] (entries.map fun entry =>
          entry.1.value.scalarText.toList ++ ':' :: ' ' :: entry.2.text.toList) ++
            '\x7d' :: rest) := by
      simp [text, entryTexts_eq_map, String.toList_intercalate, Function.comp_def]
    have htokens : (Datum.dict entries).expr.tokens = [.symbol .leftBrace] ++
        (Expr.commas (entries.map fun entry =>
          entry.1.expr.tokens ++ .symbol .colon :: entry.2.expr.tokens) ++
            [.symbol .rightBrace]) := by
      rw [expr, Expr.tokens, Expr.entryTokens_eq_map, entryExprs_eq_map, List.map_map]
      rfl
    rw [htext, htokens]
    exact Lexes.append (Lexes.symbol (by decide) rfl)
      (hentries.append (Lexes.symbol (by decide) rfl))

end Datum

end Stepper
