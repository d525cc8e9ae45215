import Stepper.Json.Reader
import Stepper.Json.Writer
import Stepper.Proofs.Number.Digits

/-!
# What is written in JSON is read back

* `Json.Reader.string_stringChars`: a string is read back from its escaped form, whatever its
  characters are.
* `Json.Reader.items_separated`: so are items with commas between them, if each of them is.
* `Json.read_chars`: so is every `Json.Plain` value.
-/

namespace Stepper.Json

theorem chars_natural (n : Nat) : (natural n).chars = Nat.toDigits 10 n := by
  rw [natural, chars, String.toList_ofList]

/-- What follows a value is nothing, or begins with a character that no number goes on with. -/
def Stops (rest : List Char) : Prop :=
  ∀ c ∈ rest.head?, Text.isAsciiDigit c = false ∧ c ≠ '.' ∧ c ≠ 'e' ∧ c ≠ 'E'

theorem stops_nil : Stops [] := by simp [Stops]

theorem stops_comma (rest : List Char) : Stops (',' :: rest) := by
  simp only [Stops, List.head?_cons, Option.mem_some, forall_eq']
  decide

/-! ## Steps of readers -/

namespace Reader

variable {cs rest : List Char}

theorem bind_of_ok {x : Reader α} {f : α → Reader β} {a : α} {r : List Char}
    (h : x cs = .ok (a, r)) : (x >>= f) cs = f a r := by
  change Except.bind (x cs) _ = _
  rw [h]
  rfl

theorem skipSpace_cons {c : Char} (h : isSpace c = false) :
    skipSpace (c :: cs) = .ok ((), c :: cs) := by
  simp [skipSpace, h]

/-! ## Strings -/

theorem hexNumber?_hexPair : ∀ n < 32, hexNumber? ('0' :: '0' :: Text.hexPair n) = some n := by
  decide

/-- Four digits, `00` and those of `n`, are read as `n`. -/
theorem hexQuad_hexPair {n : Nat} (h : n < 32) :
    hexQuad ('0' :: '0' :: (Text.hexPair n ++ rest)) = .ok (n, rest) := by
  have htake : ('0' :: '0' :: (Text.hexPair n ++ rest)).take 4 = '0' :: '0' :: Text.hexPair n := rfl
  have hsize : ¬ ('0' :: '0' :: Text.hexPair n).foldr (fun c n => c.utf8Size + n) 0 < 4 := by
    simp only [Text.hexPair, List.foldr_cons, List.foldr_nil]
    have := Char.utf8Size_pos (Text.hexDigit (n / 16))
    have := Char.utf8Size_pos (Text.hexDigit (n % 16))
    have : '0'.utf8Size = 1 := rfl
    omega
  rw [hexQuad, htake, if_neg hsize, hexNumber?_hexPair n h]
  rfl

/-- One round takes the character `c` from its escaped form. -/
theorem stringRest_escapeChar {rounds tail text : List Char} {r c : Char}
    (h : stringRest rounds tail = .ok (text, rest)) :
    stringRest (r :: rounds) (escapeChar c ++ tail) = .ok (c :: text, rest) := by
  have hescaped {e : Char} {after : List Char} (hescape : escape (e :: after) = .ok (c, tail)) :
      stringRest (r :: rounds) ('\\' :: e :: after) = .ok (c :: text, rest) := by
    rw [stringRest, bind_of_ok rfl, if_neg (by decide), if_pos rfl, bind_of_ok hescape,
      bind_of_ok h]
    rfl
  unfold escapeChar
  split
  · subst c; exact hescaped rfl
  split
  · subst c; exact hescaped rfl
  split
  · subst c; exact hescaped rfl
  split
  · subst c; exact hescaped rfl
  split
  · subst c; exact hescaped rfl
  split
  · subst c; exact hescaped rfl
  split
  · subst c; exact hescaped rfl
  split
  · rename_i hcontrol
    refine hescaped ?_
    change unicodeEscape ('0' :: '0' :: (Text.hexPair c.toNat ++ tail)) = _
    rw [unicodeEscape, bind_of_ok (hexQuad_hexPair hcontrol)]
    have hlow : (0xDC00 ≤ c.toNat && c.toNat ≤ 0xDFFF) = false := by simp; omega
    have hhigh : (0xD800 ≤ c.toNat && c.toNat ≤ 0xDBFF) = false := by simp; omega
    rw [hlow, hhigh, Char.ofNat_toNat]
    rfl
  · rename_i hquote hbackslash _ _ _ _ _ hcontrol
    rw [stringRest]
    change (if c = '"' then _ else _ : Reader (List Char)) tail = _
    rw [if_neg hquote, if_neg hbackslash, if_neg hcontrol, bind_of_ok h]
    rfl

/-- The characters of `text` are read back up to the closing quote. -/
theorem stringRest_flatMap {rounds text : List Char} (h : text.length < rounds.length) :
    stringRest rounds (text.flatMap escapeChar ++ '"' :: rest) = .ok (text, rest) := by
  induction text generalizing rounds with
  | nil =>
    obtain ⟨r, rounds, rfl⟩ := List.exists_cons_of_length_pos h
    rfl
  | cons c text ih =>
    obtain ⟨r, rounds, rfl⟩ := List.exists_cons_of_length_pos (Nat.zero_lt_of_lt h)
    rw [List.flatMap_cons, List.append_assoc]
    exact stringRest_escapeChar (ih (Nat.lt_of_succ_lt_succ h))

theorem escapeChar_ne_nil (c : Char) : escapeChar c ≠ [] := by
  unfold escapeChar
  repeat' split
  all_goals simp

/-- Escaping by `f` does not shorten a text. -/
theorem length_le_flatMap {f : α → List β} (hf : ∀ a, f a ≠ []) (as : List α) :
    as.length ≤ (as.flatMap f).length := by
  induction as with
  | nil => simp
  | cons a as ih =>
    have := List.length_pos_iff.2 (hf a)
    simp only [List.flatMap_cons, List.length_append, List.length_cons]
    omega

theorem string_stringChars (s : String) : string (stringChars s ++ rest) = .ok (s, rest) := by
  have hrounds : s.toList.length < (s.toList.flatMap escapeChar ++ '"' :: rest).length := by
    have := length_le_flatMap escapeChar_ne_nil s.toList
    simp only [List.length_append, List.length_cons]
    omega
  simp only [stringChars, List.cons_append, List.append_assoc, List.nil_append]
  rw [string, bind_of_ok (r := s.toList.flatMap escapeChar ++ '"' :: rest) rfl,
    bind_of_ok (a := s.toList.flatMap escapeChar ++ '"' :: rest) rfl,
    bind_of_ok (stringRest_flatMap hrounds), String.ofList_toList]
  rfl

/-! ## Numbers -/

theorem takeWhile_digits {ds : List Char} (hds : ∀ c ∈ ds, Text.isAsciiDigit c = true)
    (hrest : Stops rest) : takeWhile Text.isAsciiDigit (ds ++ rest) = .ok (ds, rest) := by
  have hstop : rest.takeWhile Text.isAsciiDigit = [] ∧ rest.dropWhile Text.isAsciiDigit = rest := by
    cases rest with
    | nil => exact ⟨rfl, rfl⟩
    | cons c rest => simp [(hrest c rfl).1]
  rw [takeWhile, List.takeWhile_append_of_pos hds, List.dropWhile_append_of_pos hds, hstop.1,
    hstop.2, List.append_nil]

/-- As long as a number fits, its digits `ds` are taken as they are. -/
theorem leading_of_lt {n : Nat} {ds : List Char} (h : Number.ofDigitsFrom n ds < 2 ^ 64) :
    leading n ds = (Number.ofDigitsFrom n ds, 0) := by
  induction ds generalizing n with
  | nil => rfl
  | cons d ds ih =>
    have hle := Number.le_ofDigitsFrom (10 * n + Number.digitValue d) ds
    rw [leading, if_pos (Nat.lt_of_le_of_lt hle h)]
    exact ih h

theorem leading_toDigits {n : Nat} (h : n < 2 ^ 64) :
    leading 0 (Nat.toDigits 10 n) = (n, 0) := by
  have hdigits : Number.ofDigitsFrom 0 (Nat.toDigits 10 n) = n := Number.ofDigits_toDigits n
  rw [leading_of_lt (by rwa [hdigits]), hdigits]

/-- A natural number `n` of 64 bits is far below the bound of the floats. -/
theorem isTooLarge_toDigits {n : Nat} (h : n < 2 ^ 64) :
    isTooLarge (Nat.toDigits 10 n) [] 0 = false := by
  have hone : Number.rounded 1 = 1 := by decide
  have hbound : Number.rounded (Number.rounded n) < floatBound := by
    have hn := Number.rounded_le n
    have hn' := Number.rounded_le (Number.rounded n)
    have hbig : 2 ^ 66 ≤ floatBound := by
      unfold floatBound
      apply Nat.pow_le_pow_right <;> decide
    omega
  simp [isTooLarge, leading_toDigits h, leading, hone, hbound, largestPower]

theorem number_toDigits {n : Nat} (h : n < 2 ^ 64) (hrest : Stops rest) :
    number (Nat.toDigits 10 n ++ rest) = .ok (.natural n, rest) := by
  have hdigits := @Number.isAsciiDigit_of_mem_toDigits n
  obtain ⟨d, ds, hcons⟩ := List.exists_cons_of_ne_nil (Nat.toDigits_ne_nil (n := n) (b := 10))
  have hd : Text.isAsciiDigit d = true := hdigits (hcons ▸ List.mem_cons_self)
  -- The four parts of a number in order; the digits are the second one, and the others are empty.
  have hminus : minus (Nat.toDigits 10 n ++ rest) = .ok ([], Nat.toDigits 10 n ++ rest) := by
    have hne : ¬ some d = some '-' := by
      rintro ⟨rfl⟩
      revert hd
      decide
    rw [hcons, minus, bind_of_ok (a := some d) (r := d :: ds ++ rest) rfl, if_neg hne]
    rfl
  have hwhole : wholePart (Nat.toDigits 10 n ++ rest) = .ok (Nat.toDigits 10 n, rest) := by
    have htake : digits (Nat.toDigits 10 n ++ rest) = .ok (Nat.toDigits 10 n, rest) := by
      rw [digits, bind_of_ok (a := d) (r := Nat.toDigits 10 n ++ rest) (by rw [hcons]; rfl),
        if_pos hd]
      exact takeWhile_digits (fun c => hdigits) hrest
    have hzero : ¬ ((Nat.toDigits 10 n).head? = some '0' && 1 < (Nat.toDigits 10 n).length) := by
      simp only [Bool.and_eq_true, decide_eq_true_eq, not_and]
      intro hhead
      rw [Number.length_toDigits_of_head hhead]
      decide
    rw [wholePart, bind_of_ok htake, if_neg hzero]
    rfl
  have hfraction : fraction rest = .ok ([], rest) := by
    have hne : rest.head? ≠ some '.' := fun h => (hrest '.' h).2.1 rfl
    rw [fraction, bind_of_ok (a := rest.head?) (r := rest) rfl, if_neg hne]
    rfl
  have hexponent : exponent rest = .ok ([], rest) := by
    have hne : ¬ (rest.head? = some 'e' || rest.head? = some 'E') := by
      simp only [Bool.or_eq_true, decide_eq_true_eq]
      rintro (h | h)
      · exact (hrest 'e' h).2.2.1 rfl
      · exact (hrest 'E' h).2.2.2 rfl
    rw [exponent, bind_of_ok (a := rest.head?) (r := rest) rfl, if_neg (by simpa using hne)]
    rfl
  rw [number, bind_of_ok hminus, bind_of_ok hwhole, bind_of_ok hfraction, bind_of_ok hexponent]
  have hzero : exponentOf (List.drop 1 []) = 0 := by decide
  rw [hzero, List.drop_nil, if_neg (by simp [isTooLarge_toDigits h])]
  simp [natural]
  rfl

/-! ## Lists and objects -/

/-- The reader `item` takes `x` back from its text, which starts neither with a blank nor with
`close`. -/
structure Takes (item : Reader α) (close : Char) (text : α → List Char) (x : α) : Prop where
  head : ∃ c cs, text x = c :: cs ∧ isSpace c = false ∧ c ≠ close
  read (rest : List Char) : Stops rest → item (text x ++ rest) = .ok (x, rest)

section Items

variable {item : Reader α} {text : α → List Char} {close : Char}

/-- What stands behind an item: a comma and more of `xs`, or the closing bracket. -/
theorem stops_after (hclose : close = ']' ∨ close = '\x7d') (xs : List α) (rest : List Char) :
    Stops (xs.flatMap (',' :: text ·) ++ close :: rest) := by
  cases xs with
  | nil =>
    rcases hclose with rfl | rfl
    all_goals
      simp only [Stops, List.flatMap_nil, List.nil_append, List.head?_cons, Option.mem_some,
        forall_eq']
      decide
  | cons x xs => exact stops_comma _

theorem moreItems_flatMap (hclose : close = ']' ∨ close = '\x7d') {xs : List α}
    (hitem : ∀ x ∈ xs, Takes item close text x) {rounds : List Char}
    (h : xs.length < rounds.length) :
    moreItems item close rounds (xs.flatMap (',' :: text ·) ++ close :: rest) =
      .ok (xs, rest) := by
  induction xs generalizing rounds with
  | nil =>
    obtain ⟨r, rounds, rfl⟩ := List.exists_cons_of_length_pos h
    have hspace : isSpace close = false := by rcases hclose with rfl | rfl <;> rfl
    rw [moreItems, List.flatMap_nil, List.nil_append, bind_of_ok (skipSpace_cons hspace),
      bind_of_ok rfl, if_pos rfl]
    rfl
  | cons x xs ih =>
    obtain ⟨r, rounds, rfl⟩ := List.exists_cons_of_length_pos (Nat.zero_lt_of_lt h)
    have hcomma : ¬ ',' = close := by rcases hclose with rfl | rfl <;> decide
    obtain ⟨⟨c, cs, htext, hspace, -⟩, hread⟩ := hitem x List.mem_cons_self
    have hx := hread (xs.flatMap (',' :: text ·) ++ close :: rest) (stops_after hclose xs rest)
    have hmore := ih (fun y hy => hitem y (List.mem_cons_of_mem x hy)) (Nat.lt_of_succ_lt_succ h)
    rw [htext] at hx
    rw [moreItems, List.flatMap_cons, htext, List.append_assoc, List.cons_append,
      bind_of_ok (skipSpace_cons rfl), bind_of_ok rfl, if_neg hcomma, if_pos rfl,
      List.cons_append, bind_of_ok (skipSpace_cons hspace), ← List.cons_append, bind_of_ok hx,
      bind_of_ok hmore]
    rfl

theorem intercalate_cons (sep : Char) (t : List Char) (ts : List (List Char)) :
    [sep].intercalate (t :: ts) = t ++ ts.flatMap (sep :: ·) := by
  induction ts generalizing t with
  | nil => simp
  | cons u ts ih => rw [List.intercalate_cons_cons, ih, List.flatMap_cons]; simp

/-- Items `xs` with commas between them are read back. -/
theorem items_separated (hclose : close = ']' ∨ close = '\x7d') {xs : List α}
    (hitem : ∀ x ∈ xs, Takes item close text x) :
    items item close ([','].intercalate (xs.map text) ++ close :: rest) = .ok (xs, rest) := by
  cases xs with
  | nil =>
    have hspace : isSpace close = false := by rcases hclose with rfl | rfl <;> rfl
    rw [items, List.map_nil, List.intercalate_nil, List.nil_append,
      bind_of_ok (skipSpace_cons hspace), bind_of_ok rfl, if_pos rfl]
    rfl
  | cons x xs =>
    obtain ⟨⟨c, cs, htext, hspace, hne⟩, hread⟩ := hitem x List.mem_cons_self
    have hx := hread (xs.flatMap (',' :: text ·) ++ close :: rest) (stops_after hclose xs rest)
    have hlength :=
      length_le_flatMap (f := fun x => ',' :: text x) (fun _ => List.cons_ne_nil _ _) xs
    have hrounds : xs.length < (xs.flatMap (',' :: text ·) ++ close :: rest).length := by
      simp only [List.length_append, List.length_cons]
      omega
    have hmore : moreItems item close _ (xs.flatMap (',' :: text ·) ++ close :: rest) =
        .ok (xs, rest) :=
      moreItems_flatMap hclose (fun y hy => hitem y (List.mem_cons_of_mem x hy)) hrounds
    rw [htext] at hx
    rw [items, List.map_cons, intercalate_cons, List.flatMap_map, List.append_assoc, htext,
      List.cons_append, bind_of_ok (skipSpace_cons hspace), bind_of_ok rfl, if_neg hne,
      ← List.cons_append, bind_of_ok hx, bind_of_ok rfl, bind_of_ok hmore]
    rfl

end Items

/-- The characters of the `entry` of an object. -/
def entryChars (entry : String × Json) : List Char :=
  stringChars entry.1 ++ ':' :: entry.2.chars

theorem itemsChars_eq (items : List Json) :
    itemsChars items = [','].intercalate (items.map chars) := by
  induction items with
  | nil => rfl
  | cons item items ih => cases items <;> simp_all [itemsChars]

theorem entriesChars_eq (entries : List (String × Json)) :
    entriesChars entries = [','].intercalate (entries.map entryChars) := by
  induction entries with
  | nil => rfl
  | cons entry entries ih => cases entries <;> simp_all [entriesChars, entryChars]

/-- The entry `e` is read back if its value is. -/
theorem takes_entry {value : Reader Json} {e : String × Json} {close : Char} (hclose : '"' ≠ close)
    (hvalue : ∀ rest, Stops rest → value (e.2.chars ++ rest) = .ok (e.2, rest)) :
    Takes (entry value) close entryChars e := by
  refine ⟨⟨'"', _, rfl, rfl, hclose⟩, fun rest hrest => ?_⟩
  have hkey : string (stringChars e.1 ++ ':' :: (e.2.chars ++ rest)) =
      .ok (e.1, ':' :: (e.2.chars ++ rest)) := string_stringChars e.1
  rw [entryChars, List.append_assoc, List.cons_append, entry, bind_of_ok (a := '"') rfl,
    if_neg (by decide)]
  change (string >>= _) _ = _
  rw [bind_of_ok hkey, bind_of_ok (skipSpace_cons rfl), bind_of_ok (a := ()) rfl,
    bind_of_ok (hvalue rest hrest)]
  rfl

end Reader

/-! ## Values -/

open Reader

/-- The text of a plain value `j` starts neither with a blank nor with a closing bracket. -/
theorem Plain.head {depth : Nat} {j : Json} (h : Plain depth j) :
    ∃ c cs, j.chars = c :: cs ∧ isSpace c = false ∧ c ≠ ']' := by
  cases h with
  | null => exact ⟨'n', _, rfl, rfl, by decide⟩
  | bool b => cases b <;> exact ⟨_, _, rfl, rfl, by decide⟩
  | @natural _ n hn =>
    obtain ⟨d, ds, hcons⟩ := List.exists_cons_of_ne_nil (Nat.toDigits_ne_nil (n := n) (b := 10))
    have hd : Text.isAsciiDigit d = true :=
      Number.isAsciiDigit_of_mem_toDigits (hcons ▸ List.mem_cons_self)
    refine ⟨d, ds, by rw [chars_natural, hcons], ?_, ?_⟩
    · cases hspace : isSpace d with
      | false => rfl
      | true =>
        simp only [isSpace, Bool.or_eq_true, decide_eq_true_eq] at hspace
        rcases hspace with ((rfl | rfl) | rfl) | rfl <;> revert hd <;> decide
    · rintro rfl
      revert hd
      decide
  | str s => exact ⟨'"', _, rfl, rfl, by decide⟩
  | list h => exact ⟨'[', _, rfl, rfl, by decide⟩
  | object h => exact ⟨'\x7b', _, rfl, rfl, by decide⟩

theorem valueWithin_eq (depth : Nat) : ∃ inner, valueWithin depth = valueOf inner := by
  cases depth <;> exact ⟨_, rfl⟩

theorem valueOf_natural {inner : Option (Reader Json)} {n : Nat} (hn : n < 2 ^ 64)
    {rest : List Char} (hrest : Stops rest) :
    valueOf inner ((Json.natural n).chars ++ rest) = .ok (.natural n, rest) := by
  have hplain : Plain 0 (.natural n) := .natural hn
  obtain ⟨c, cs, hchars, hspace, -⟩ := hplain.head
  have hnumber := number_toDigits hn hrest
  have hdigit : Text.isAsciiDigit c = true :=
    Number.isAsciiDigit_of_mem_toDigits (n := n)
      (by rw [← chars_natural, hchars]; exact List.mem_cons_self)
  have hne {d : Char} (hd : Text.isAsciiDigit d = false) : ¬ c = d := by
    rintro rfl
    rw [hdigit] at hd
    cases hd
  rw [← chars_natural, hchars] at hnumber
  rw [hchars, valueOf.eq_def, List.cons_append, bind_of_ok (skipSpace_cons hspace),
    bind_of_ok (a := c) rfl, if_neg (hne rfl), if_neg (hne rfl), if_neg (hne rfl),
    if_neg (hne rfl), if_pos (by simp [hdigit])]
  exact hnumber

/-- A plain value `j` is read back, by induction on `Plain`: `depth` is that of the reader. -/
theorem valueWithin_chars {depth : Nat} {j : Json} (h : Plain depth j) {rest : List Char}
    (hrest : Stops rest) : valueWithin depth (j.chars ++ rest) = .ok (j, rest) := by
  -- On `Plain`, for any `rest`: the items of a list are followed by commas and the bracket.
  induction h generalizing rest with
  | @null depth =>
    obtain ⟨inner, hdepth⟩ := valueWithin_eq depth
    rw [hdepth]
    rfl
  | @bool depth b =>
    obtain ⟨inner, hdepth⟩ := valueWithin_eq depth
    rw [hdepth]
    cases b <;> rfl
  | @natural depth n hn =>
    obtain ⟨inner, hdepth⟩ := valueWithin_eq depth
    rw [hdepth]
    exact valueOf_natural hn hrest
  | @str depth s =>
    obtain ⟨inner, hdepth⟩ := valueWithin_eq depth
    rw [hdepth, chars]
    change (string >>= fun s => pure (Json.str s)) (stringChars s ++ rest) = _
    rw [bind_of_ok (string_stringChars s)]
    rfl
  | @list depth xs hxs ih =>
    have hitems : items (valueWithin depth) ']' ([','].intercalate (xs.map chars) ++ ']' :: rest) =
        .ok (xs, rest) :=
      items_separated (.inl rfl) fun x hx => ⟨(hxs x hx).head, fun rest hrest => ih x hx hrest⟩
    rw [chars, itemsChars_eq]
    simp only [List.cons_append, List.append_assoc, List.nil_append]
    change (items (valueWithin depth) ']' >>= fun xs => pure (Json.list xs)) _ = _
    rw [bind_of_ok hitems]
    rfl
  | @object depth es hes ih =>
    have hitems : items (entry (valueWithin depth)) '\x7d'
        ([','].intercalate (es.map entryChars) ++ '\x7d' :: rest) = .ok (es, rest) :=
      items_separated (.inr rfl) fun e he =>
        takes_entry (by decide) fun rest hrest => ih e he hrest
    rw [chars, entriesChars_eq]
    simp only [List.cons_append, List.append_assoc, List.nil_append]
    change (items (entry (valueWithin depth)) '\x7d' >>= fun es => pure (Json.object es)) _ = _
    rw [bind_of_ok hitems]
    rfl

/-- What is written of a plain value `j` is read as `j`, with nothing left over. -/
theorem read_chars {j : Json} (h : Plain depthLimit j) : read j.chars = .ok (j, []) := by
  have hread := valueWithin_chars h stops_nil
  rwa [List.append_nil] at hread

end Stepper.Json
