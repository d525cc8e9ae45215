import Mathlib.Data.List.Infix
import Stepper.Text.Blank
import Stepper.Text.Pieces

/-!
# Pieces and words of a text

* `Text.occursIn_iff`: the search for a part finds exactly the parts that are somewhere in a text.
* `Text.Found`: the occurrences of a part that one finds from the left, none of which overlaps the
  one before. There is one list of them (`Text.Found.unique`).
* `Text.Cuts`: a text cut at each of these occurrences. `Text.cuts_piecesFrom` says that the pieces
  of a text are such a cut, and the lemmas about `Text.Cuts` what that makes of them: joined again
  they are the text, none contains the separator, and there is one more than there are occurrences.
* `Text.intercalate_piecesAt`, `Text.not_isInfix_of_mem_piecesAt`, `Text.length_piecesAt`: the same
  about the pieces of a `String`.
* `Text.toList_words`: the words of a text are what stands between its blanks, where that is not
  empty.
-/

namespace Stepper.Text

variable {part separator whole text rest piece cs : List Char} {pieces : List (List Char)}
variable {start i : Nat} {places : List Nat}

/-! ## Occurrences -/

/-- The text `part` stands in `whole` at the position `i`. -/
def StandsAt (part whole : List Char) (i : Nat) : Prop :=
  part <+: whole.drop i

theorem standsAt_drop : StandsAt part (whole.drop start) i ↔ StandsAt part whole (start + i) := by
  rw [StandsAt, StandsAt, List.drop_drop]

/-- What stands in `text`, stands there however it goes on with `rest`. -/
theorem StandsAt.append (h : StandsAt part text i) (hi : i ≤ text.length) (rest : List Char) :
    StandsAt part (text ++ rest) i := by
  rw [StandsAt, List.drop_append_of_le_length hi]
  exact h.trans (List.prefix_append _ _)

theorem isInfix_of_standsAt (h : StandsAt part whole i) : part <:+: whole :=
  h.isInfix.trans (List.drop_suffix i whole).isInfix

/-- A `part` that is not empty begins before the end of the text. -/
theorem exists_standsAt (hpart : part ≠ []) (h : part <:+: whole) :
    ∃ i < whole.length, StandsAt part whole i := by
  obtain ⟨before, after, rfl⟩ := h
  have hlength := List.length_pos_of_ne_nil hpart
  exact ⟨before.length, by simp; omega, by simp [StandsAt]⟩

theorem occursIn_iff : occursIn part whole = true ↔ part <:+: whole := by
  induction whole with
  | nil => simp [occursIn]
  | cons c whole ih =>
    rw [occursIn, Bool.or_eq_true, ih, List.isPrefixOf_iff_prefix, List.infix_cons_iff]

/-- The positions from `start` on at which a part is found from the left: each time the first one at
which it stands, and then the search goes on behind it. -/
inductive Found (part whole : List Char) : Nat → List Nat → Prop
  | none {start : Nat} (hnone : ∀ i, start ≤ i → ¬ StandsAt part whole i) :
      Found part whole start []
  | next {start i : Nat} {places : List Nat} (hle : start ≤ i) (hi : StandsAt part whole i)
      (hfirst : ∀ j, start ≤ j → j < i → ¬ StandsAt part whole j)
      (hrest : Found part whole (i + part.length) places) : Found part whole start (i :: places)

theorem Found.unique {places' : List Nat} (h : Found part whole start places)
    (h' : Found part whole start places') : places = places' := by
  induction h generalizing places' with
  | none hnone =>
    cases h' with
    | none => rfl
    | next hle hi => exact absurd hi (hnone _ hle)
  | @next start i places hle hi hfirst _ ih =>
    cases h' with
    | none hnone => exact absurd hi (hnone _ hle)
    | @next _ j _ hle' hj hfirst' hrest' =>
      obtain rfl : i = j :=
        Nat.le_antisymm (Nat.le_of_not_lt fun hlt => hfirst j hle' hlt hj)
          (Nat.le_of_not_lt fun hlt => hfirst' i hle hlt hi)
      rw [ih hrest']

/-! ## Pieces -/

/-- A text cut at `separator`: each piece goes up to the first occurrence of the separator in what
is left of the text, and the last one has none. -/
inductive Cuts (separator : List Char) : List Char → List (List Char) → Prop
  | last {piece : List Char} (hnone : ¬ separator <:+: piece) : Cuts separator piece [piece]
  | next {piece rest : List Char} {pieces : List (List Char)}
      (hfirst : ∀ i < piece.length, ¬ StandsAt separator (piece ++ separator ++ rest) i)
      (hrest : Cuts separator rest pieces) :
      Cuts separator (piece ++ separator ++ rest) (piece :: pieces)

/-- No occurrence of `separator` begins in `piece`, so the piece contains none. -/
theorem not_isInfix_of_first (hseparator : separator ≠ [])
    (hfirst : ∀ i < piece.length, ¬ StandsAt separator (piece ++ rest) i) :
    ¬ separator <:+: piece := by
  intro h
  obtain ⟨i, hi, hstands⟩ := exists_standsAt hseparator h
  exact hfirst i hi (hstands.append (Nat.le_of_lt hi) rest)

/-- Reading on, the pieces cut the text of the piece in progress and of what is not skipped. The
invariant is that no separator begins in the piece in progress; while one is skipped, this piece is
empty. -/
theorem cuts_piecesFrom (hseparator : separator ≠ []) {skip : Nat} (hskip : skip = 0 ∨ piece = [])
    (hpiece : ∀ i < piece.length, ¬ StandsAt separator (piece.reverse ++ cs) i) :
    Cuts separator (piece.reverse ++ cs.drop skip) (piecesFrom separator skip piece cs) := by
  induction cs generalizing skip piece with
  | nil =>
    rw [← List.length_reverse] at hpiece
    have hnone : ¬ separator <:+: piece.reverse := not_isInfix_of_first hseparator hpiece
    rw [List.drop_nil, List.append_nil]
    cases skip <;> exact .last hnone
  | cons c cs ih =>
    cases skip with
    | succ skip =>
      obtain rfl : piece = [] := hskip.resolve_left (Nat.succ_ne_zero skip)
      exact ih (.inr rfl) nofun
    | zero =>
      rw [piecesFrom, List.drop_zero]
      split
      · next hprefix =>
        -- A separator begins here: the piece is finished, and the rest of the separator is skipped.
        obtain ⟨rest, hrest⟩ := List.isPrefixOf_iff_prefix.1 hprefix
        have hdrop : cs.drop (separator.length - 1) = rest := by
          rw [← List.drop_cons (List.length_pos_of_ne_nil hseparator), ← hrest, List.drop_left]
        have hnext : Cuts separator rest (piecesFrom separator (separator.length - 1) [] cs) :=
          hdrop ▸ ih (.inr rfl) nofun
        rw [← hrest, ← List.append_assoc, ← List.length_reverse] at hpiece
        rw [← hrest, ← List.append_assoc]
        exact .next hpiece hnext
      · next hprefix =>
        -- None begins here either, so the invariant holds of the piece with this character.
        rw [List.append_cons, ← List.reverse_cons]
        refine ih (.inl rfl) fun i hi => ?_
        rw [List.reverse_cons, List.append_assoc, List.singleton_append]
        obtain hlt | rfl := Nat.lt_or_eq_of_le (Nat.le_of_lt_succ hi)
        · exact hpiece i hlt
        · rwa [StandsAt, ← List.length_reverse, List.drop_left, ← List.isPrefixOf_iff_prefix]

namespace Cuts

theorem ne_nil (h : Cuts separator text pieces) : pieces ≠ [] := by
  cases h <;> exact List.cons_ne_nil _ _

/-- Joined again by `separator`, the `pieces` are `text`. -/
theorem intercalate_eq (h : Cuts separator text pieces) : separator.intercalate pieces = text := by
  induction h with
  | last => exact List.intercalate_singleton
  | next _ hrest ih => rw [List.intercalate_cons_of_ne_nil hrest.ne_nil, ih]

theorem not_isInfix (hseparator : separator ≠ []) (h : Cuts separator text pieces) :
    ∀ piece ∈ pieces, ¬ separator <:+: piece := by
  induction h with
  | last hnone => exact List.forall_mem_singleton.2 hnone
  | next hfirst _ ih =>
    rw [List.append_assoc] at hfirst
    exact List.forall_mem_cons.2 ⟨not_isInfix_of_first hseparator hfirst, ih⟩

/-- There is one piece more than there are occurrences of `separator` from `start` on. -/
theorem exists_found (h : Cuts separator text pieces) (htext : whole.drop start = text) :
    ∃ places, Found separator whole start places ∧ pieces.length = places.length + 1 := by
  -- Along the cuts, with the place in `whole` where what is left of the text starts.
  induction h generalizing start with
  | last hnone =>
    refine ⟨[], .none fun i hi hstands => hnone ?_, rfl⟩
    obtain ⟨k, rfl⟩ := Nat.exists_eq_add_of_le hi
    exact htext ▸ isInfix_of_standsAt (standsAt_drop.2 hstands)
  | @next piece rest pieces hfirst _ ih =>
    have hrest : whole.drop (start + piece.length + separator.length) = rest := by
      rw [Nat.add_assoc, ← List.drop_drop, htext, ← List.length_append, List.drop_left]
    obtain ⟨places, hfound, hlength⟩ := ih hrest
    refine ⟨(start + piece.length) :: places, .next (Nat.le_add_right _ _) ?_ ?_ hfound,
      congrArg (· + 1) hlength⟩
    · rw [← standsAt_drop, htext, StandsAt, List.append_assoc, List.drop_left]
      exact List.prefix_append _ _
    · intro j hj hlt
      obtain ⟨k, rfl⟩ := Nat.exists_eq_add_of_le hj
      rw [← standsAt_drop, htext]
      exact hfirst k (by omega)

end Cuts

/-! ## Words -/

/-- The words are the pieces of `cs` between the blanks, without the empty ones; `current` is the
word in progress. -/
theorem wordsFrom_eq (current cs : List Char) :
    wordsFrom current cs = (cs.splitOnPPrepend isBlank current).filter (!·.isEmpty) := by
  induction cs generalizing current with
  | nil => cases current <;> simp [wordsFrom]
  | cons c cs ih =>
    rw [wordsFrom, List.splitOnPPrepend_cons_eq_if]
    split
    · rw [← List.splitOnPPrepend_nil_right, List.filter_cons, ← ih]
      cases current <;> simp
    · exact ih (c :: current)

/-- A `word` is a text that is not empty and has no blanks. -/
def IsWord (word : List Char) : Prop :=
  word ≠ [] ∧ ∀ c ∈ word, isBlank c = false

theorem isWord_reverse {word : List Char} : IsWord word.reverse ↔ IsWord word := by
  simp [IsWord]

theorem isWord_of_mem_wordsFrom {current word : List Char}
    (hcurrent : ∀ c ∈ current, isBlank c = false) (h : word ∈ wordsFrom current cs) :
    IsWord word := by
  induction cs generalizing current with
  | nil =>
    cases current with
    | nil => cases h
    | cons b current =>
      obtain rfl := List.mem_singleton.1 h
      exact isWord_reverse.2 ⟨List.cons_ne_nil b current, hcurrent⟩
  | cons c cs ih =>
    have hnone : ∀ c ∈ ([] : List Char), isBlank c = false := nofun
    rw [wordsFrom] at h
    split at h
    · split at h
      · exact ih hnone h
      · next hne =>
        obtain rfl | h := List.mem_cons.1 h
        · exact isWord_reverse.2 ⟨mt List.isEmpty_iff.2 hne, hcurrent⟩
        · exact ih hnone h
    · next hc =>
      exact ih (List.forall_mem_cons.2 ⟨Bool.of_not_eq_true hc, hcurrent⟩) h

/-- The words are all that is not blank, after the word in progress, `current`. -/
theorem flatten_wordsFrom (current cs : List Char) :
    (wordsFrom current cs).flatten = current.reverse ++ cs.filter (!isBlank ·) := by
  induction cs generalizing current with
  | nil => cases current <;> simp [wordsFrom]
  | cons c cs ih =>
    rw [wordsFrom]
    split
    · next hc => cases current <;> simp [ih, hc]
    · next hc => simp [ih, hc]

/-! ## Texts -/

section Texts

variable {separator piece word t : String}

theorem cuts_piecesAt (hseparator : separator ≠ "") (t : String) :
    Cuts separator.toList t.toList ((piecesAt separator t).map String.toList) := by
  have hne : separator.toList ≠ [] := mt String.toList_eq_nil_iff.1 hseparator
  have hcuts : Cuts separator.toList ([].reverse ++ t.toList.drop 0)
      (piecesFrom separator.toList 0 [] t.toList) := cuts_piecesFrom hne (.inl rfl) nofun
  simpa [piecesAt, Function.comp_def] using hcuts

theorem intercalate_piecesAt (hseparator : separator ≠ "") (t : String) :
    separator.intercalate (piecesAt separator t) = t := by
  rw [← String.toList_inj, String.toList_intercalate, (cuts_piecesAt hseparator t).intercalate_eq]

theorem not_isInfix_of_mem_piecesAt (hseparator : separator ≠ "")
    (hpiece : piece ∈ piecesAt separator t) : ¬ separator.toList <:+: piece.toList :=
  (cuts_piecesAt hseparator t).not_isInfix (mt String.toList_eq_nil_iff.1 hseparator) _
    (List.mem_map_of_mem hpiece)

/-- There is one piece more than there are places at which `separator` is found in `t`. -/
theorem length_piecesAt (hseparator : separator ≠ "") (t : String) :
    ∃ places, (∀ found, Found separator.toList t.toList 0 found ↔ found = places) ∧
      (piecesAt separator t).length = places.length + 1 := by
  have hwhole : t.toList.drop 0 = t.toList := List.drop_zero
  obtain ⟨places, hfound, hlength⟩ := (cuts_piecesAt hseparator t).exists_found hwhole
  rw [List.length_map] at hlength
  exact ⟨places, fun found => ⟨fun h => h.unique hfound, fun h => h ▸ hfound⟩, hlength⟩

theorem toList_words (t : String) :
    (words t).map String.toList = (t.toList.splitOnP isBlank).filter (!·.isEmpty) := by
  simp [words, wordsFrom_eq, Function.comp_def]

theorem isWord_of_mem_words (h : word ∈ words t) : IsWord word.toList := by
  obtain ⟨cs, hcs, rfl⟩ := List.mem_map.1 h
  have hnone : ∀ c ∈ ([] : List Char), isBlank c = false := nofun
  rw [String.toList_ofList]
  exact isWord_of_mem_wordsFrom hnone hcs

theorem join_words (t : String) :
    String.join (words t) = String.ofList (t.toList.filter (!isBlank ·)) := by
  rw [← String.toList_inj, String.toList_join, String.toList_ofList, words, List.flatMap_map]
  simp [flatten_wordsFrom]

end Texts

end Stepper.Text
