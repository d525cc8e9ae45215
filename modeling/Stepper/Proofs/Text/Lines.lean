import Mathlib.Data.List.Induction
import Mathlib.Data.List.TakeWhile
import Stepper.Location
import Stepper.Text.Blank

/-!
# Places and lines of a text

* `Text.lineSoFar`, `Text.lineFrom`: what stands before and after a place on the same line.
* `Location.past`: the place after some characters, read off these characters. It is where one
  stands after reading them (`Location.start_after`).
* `Location.Precedes`: the order of reading.
* `Text.lines_around`: the line of a place is among the lines of the text, but for a carriage return
  at its end.
* `Text.trimBoth_around`: a text without the blanks around it, at a character that is not blank.
-/

namespace Stepper

namespace Text

/-- The characters of the last line of `before`. -/
def lineSoFar (before : List Char) : List Char :=
  (before.reverse.takeWhile (· ≠ '\n')).reverse

/-- The characters of `after` up to the end of the line. -/
def lineFrom (after : List Char) : List Char :=
  after.takeWhile (· ≠ '\n')

@[simp] theorem lineSoFar_nil : lineSoFar [] = [] := rfl

theorem lineSoFar_concat (before : List Char) (c : Char) :
    lineSoFar (before ++ [c]) = if c = '\n' then [] else lineSoFar before ++ [c] := by
  by_cases hc : c = '\n' <;> simp [lineSoFar, hc]

end Text

/-! ## Places -/

namespace Location

/-- The place after the characters `before` of a text. Lines end at `\n`. -/
def past (before : List Char) : Location :=
  ⟨before.count '\n' + 1, (Text.lineSoFar before).length + 1⟩

theorem past_concat (before : List Char) (c : Char) :
    past (before ++ [c]) = (past before).next c := by
  by_cases hc : c = '\n' <;> simp [past, next, Text.lineSoFar_concat, hc]

/-- Reading `before` from the start leads to the place after it. -/
theorem start_after (before : List Char) : start.after before = past before := by
  induction before using List.reverseRecOn with
  | nil => rfl
  | append_singleton before c ih => rw [after_append, ih, past_concat]; rfl

/-- The place `a` comes before `b` in the order of reading. -/
def Precedes (a b : Location) : Prop :=
  a.line < b.line ∨ a.line = b.line ∧ a.column < b.column

theorem Precedes.trans {a b c : Location} (hab : a.Precedes b) (hbc : b.Precedes c) :
    a.Precedes c := by
  unfold Precedes at *
  omega

theorem precedes_next (loc : Location) (c : Char) : loc.Precedes (loc.next c) := by
  unfold next
  split
  · exact .inl (Nat.lt_succ_self _)
  · exact .inr ⟨rfl, Nat.lt_succ_self _⟩

/-- Reading a `text` that is not empty leads forward from `loc`. -/
theorem precedes_after (loc : Location) {text : List Char} (h : text ≠ []) :
    loc.Precedes (loc.after text) := by
  induction text generalizing loc with
  | nil => exact absurd rfl h
  | cons c text ih =>
    cases text with
    | nil => exact loc.precedes_next c
    | cons d text => exact (loc.precedes_next c).trans (ih _ (List.cons_ne_nil _ _))

end Location

/-! ## Lines -/

namespace Text

/-- The lines that end in `before` do not depend on what follows. -/
theorem exists_linesFrom_append (before : List Char) :
    ∃ done : List (List Char), done.length = before.count '\n' ∧
      ∀ after, linesFrom [] (before ++ after) =
        done ++ linesFrom (lineSoFar before).reverse after := by
  -- Character by character from the end: a `\n` finishes the line in progress.
  induction before using List.reverseRecOn with
  | nil => exact ⟨[], rfl, fun _ => rfl⟩
  | append_singleton before c ih =>
    obtain ⟨done, hlength, hdone⟩ := ih
    by_cases hc : c = '\n'
    · refine ⟨done ++ [finishLine (lineSoFar before).reverse], by simp [hlength, hc],
        fun after => ?_⟩
      rw [List.append_assoc, hdone]
      simp [linesFrom, lineSoFar_concat, hc]
    · refine ⟨done, by simp [hlength, hc], fun after => ?_⟩
      rw [List.append_assoc, hdone]
      simp [linesFrom, lineSoFar_concat, hc]

/-- The `line` of a text is `whole`, as it stands there, or `whole` without `\r` at its end. -/
def IsLine (line whole : List Char) : Prop :=
  whole = line ∨ whole = line ++ ['\r']

theorem isLine_finishLine (current : List Char) : IsLine (finishLine current) current.reverse := by
  unfold finishLine
  split
  · exact .inr (by simp)
  · exact .inl rfl

/-- The line in progress, `current`, goes on up to its end. -/
theorem head_linesFrom {current : List Char} (h : current ≠ []) (after : List Char) :
    ∃ line more, linesFrom current after = line :: more ∧
      IsLine line (current.reverse ++ lineFrom after) := by
  induction after generalizing current with
  | nil =>
    obtain ⟨c, current, rfl⟩ := List.exists_cons_of_ne_nil h
    exact ⟨_, [], rfl, .inl (by simp [lineFrom])⟩
  | cons c after ih =>
    obtain ⟨b, current, rfl⟩ := List.exists_cons_of_ne_nil h
    by_cases hc : c = '\n'
    · refine ⟨finishLine (b :: current), linesFrom [] after, by simp [linesFrom, hc], ?_⟩
      simpa [lineFrom, hc] using isLine_finishLine (b :: current)
    · obtain ⟨line, more, hlines, hline⟩ := ih (List.cons_ne_nil c (b :: current))
      refine ⟨line, more, by simp [linesFrom, hc, hlines], ?_⟩
      simpa [lineFrom, hc] using hline

/-- The line on which a character `c` stands is a line of `source`. -/
theorem lines_around {source : String} {before after : List Char} {c : Char} (hc : c ≠ '\n')
    (h : source.toList = before ++ c :: after) :
    ∃ line, (lines source)[before.count '\n']? = some line ∧
      IsLine line.toList (lineSoFar before ++ c :: lineFrom after) := by
  obtain ⟨done, hlength, hdone⟩ := exists_linesFrom_append before
  obtain ⟨line, more, hlines, hline⟩ :=
    head_linesFrom (List.cons_ne_nil c (lineSoFar before).reverse) after
  have hnext : linesFrom (lineSoFar before).reverse (c :: after) = line :: more := by
    rw [← hlines, linesFrom, if_neg hc]
  refine ⟨String.ofList line, ?_, ?_⟩
  · rw [lines, h, hdone, hnext, List.getElem?_map, ← hlength,
      List.getElem?_append_right (Nat.le_refl _)]
    simp
  · simpa using hline

/-! ## Blanks around a text -/

variable {p : Char → Bool} {before mid behind : List Char}

/-- What is trimmed away, `before` and `behind`, does not matter to a trimmed text. -/
theorem trimBoth_padded (hbefore : ∀ c ∈ before, p c = true) (hbehind : ∀ c ∈ behind, p c = true) :
    trimBoth p (before ++ mid ++ behind) = trimBoth p mid := by
  have hnone : behind.dropWhile p = [] := List.dropWhile_eq_nil_iff.2 hbehind
  have hreverse : ∀ c ∈ behind.reverse, p c = true := fun c hc => hbehind c (List.mem_reverse.1 hc)
  rw [List.append_assoc, trimBoth, trimBoth, List.dropWhile_append_of_pos hbefore,
    List.dropWhile_append]
  split
  · next hempty => rw [hnone, List.isEmpty_iff.1 hempty]
  · rw [List.reverse_append, List.dropWhile_append_of_pos hreverse]

/-- Blanks `before` and `behind` a `text` are trimmed away. -/
theorem trim_padded {before text behind : String} (hbefore : ∀ c ∈ before.toList, isBlank c = true)
    (hbehind : ∀ c ∈ behind.toList, isBlank c = true) :
    trim (before ++ text ++ behind) = trim text := by
  rw [trim, trim, String.toList_append, String.toList_append, trimBoth_padded hbefore hbehind]

/-- What satisfies `p` is dropped up to a character `c` that does not. -/
theorem dropWhile_around {c : Char} (hc : p c = false) (before behind : List Char) :
    (before ++ c :: behind).dropWhile p = before.dropWhile p ++ c :: behind := by
  induction before with
  | nil => simp [hc]
  | cons b before ih =>
    rw [List.cons_append, List.dropWhile_cons, List.dropWhile_cons]
    split
    · exact ih
    · rfl

/-- At a character `c` that is not trimmed, what is trimmed at the start and at the end is apart. -/
theorem trimBoth_around {c : Char} (hc : p c = false) (before behind : List Char) :
    trimBoth p (before ++ c :: behind) =
      before.dropWhile p ++ c :: (behind.reverse.dropWhile p).reverse := by
  rw [trimBoth, dropWhile_around hc, List.reverse_append, List.reverse_cons, List.append_assoc,
    List.singleton_append, dropWhile_around hc]
  simp

/-- The `\r` at the end of a line is trimmed away. -/
theorem IsLine.trimBoth_eq {line whole : List Char} (h : IsLine line whole) :
    trimBoth isBlank line = trimBoth isBlank whole := by
  rcases h with rfl | rfl
  · rfl
  · have hnone : ∀ c ∈ ([] : List Char), isBlank c = true := nofun
    have hreturn : ∀ c ∈ ['\r'], isBlank c = true := List.forall_mem_singleton.2 rfl
    exact (trimBoth_padded hnone hreturn).symm

end Text

end Stepper
