import Stepper.Proofs.Token.Lexing

/-!
# Gaps between tokens

* `skipBlanks_gap`, `skipBlanks_hash` and the like: what is skipped, by what comes first.
* `skipBlanks_induct`: induction along what is skipped.
-/

namespace Stepper

/-- A blank that is skipped between tokens. -/
def isGap (c : Char) : Bool :=
  c = ' ' || c = '\t' || c = '\r' || c = '\x0c'

variable {c : Char} {rest : List Char}

theorem skipBlanks_lineFeed (inComment : Bool) (rest : List Char) :
    skipBlanks inComment ('\n' :: rest) = ⟨(), [], '\n' :: rest⟩ := by
  rw [skipBlanks.eq_def]
  cases inComment <;> rfl

theorem skipBlanks_inComment (hc : c ≠ '\n') (rest : List Char) :
    skipBlanks true (c :: rest) = (skipBlanks true rest).put c := by
  rw [skipBlanks.eq_def]
  simp [hc]

theorem skipBlanks_gap (hc : isGap c = true) (rest : List Char) :
    skipBlanks false (c :: rest) = (skipBlanks false rest).put c := by
  rw [skipBlanks.eq_def]
  exact if_pos hc

theorem skipBlanks_hash (rest : List Char) :
    skipBlanks false ('#' :: rest) = (skipBlanks true rest).put '#' := by
  rw [skipBlanks.eq_def]
  rfl

theorem skipBlanks_joined (rest : List Char) :
    skipBlanks false ('\\' :: '\n' :: rest) = ((skipBlanks false rest).put '\n').put '\\' := by
  rw [skipBlanks.eq_def]
  rfl

theorem skipBlanks_joinedReturn (rest : List Char) :
    skipBlanks false ('\\' :: '\r' :: '\n' :: rest) =
      (((skipBlanks false rest).put '\n').put '\r').put '\\' := by
  rw [skipBlanks.eq_def]
  rfl

/-- A `\` joins no line if what follows it is neither `\n` nor `\r\n`. -/
theorem skipBlanks_backslash (hfeed : ∀ more, rest ≠ '\n' :: more)
    (hreturn : ∀ more, rest ≠ '\r' :: '\n' :: more) :
    skipBlanks false ('\\' :: rest) = ⟨(), [], '\\' :: rest⟩ := by
  rw [skipBlanks.eq_def]
  dsimp only
  rw [if_neg (by decide), if_neg (by decide), if_neg (by decide), if_pos rfl]
  split
  · exact absurd rfl (hfeed _)
  · exact absurd rfl (hreturn _)
  · rfl

/-- Induction along a gap: what it may begin with, and what may stop it. The Boolean of `motive`
tells whether one is in a comment. -/
theorem skipBlanks_induct {motive : Bool → List Char → Prop} (nil : ∀ b, motive b [])
    (lineFeed : ∀ b rest, motive b ('\n' :: rest))
    (inComment : ∀ c rest, c ≠ '\n' → motive true rest → motive true (c :: rest))
    (gap : ∀ c rest, isGap c = true → motive false rest → motive false (c :: rest))
    (hash : ∀ rest, motive true rest → motive false ('#' :: rest))
    (joined : ∀ rest, motive false rest → motive false ('\\' :: '\n' :: rest))
    (joinedReturn : ∀ rest, motive false rest → motive false ('\\' :: '\r' :: '\n' :: rest))
    (backslash : ∀ rest, (∀ more, rest ≠ '\n' :: more) → (∀ more, rest ≠ '\r' :: '\n' :: more) →
      motive false ('\\' :: rest))
    (visible : ∀ c rest, isVisible c = true → motive false (c :: rest))
    (b : Bool) (cs : List Char) : motive b cs := by
  -- on the length: a joined line takes more than one character at once
  induction hn : cs.length using Nat.strongRecOn generalizing b cs with
  | ind n ih =>
    subst hn
    rcases cs with _ | ⟨c, rest⟩
    · exact nil b
    have hrest (b : Bool) : motive b rest := ih rest.length (Nat.lt_succ_self _) b rest rfl
    by_cases hc : c = '\n'
    · exact hc ▸ lineFeed b rest
    cases b with
    | true => exact inComment c rest hc (hrest true)
    | false =>
      by_cases hgap : isGap c = true
      · exact gap c rest hgap (hrest false)
      by_cases hhash : c = '#'
      · exact hhash ▸ hash rest (hrest true)
      by_cases hslash : c = '\\'
      · subst c
        by_cases hfeed : ∃ more, rest = '\n' :: more
        · obtain ⟨more, rfl⟩ := hfeed
          exact joined more (ih more.length (by simp only [List.length_cons]; omega) false more rfl)
        by_cases hreturn : ∃ more, rest = '\r' :: '\n' :: more
        · obtain ⟨more, rfl⟩ := hreturn
          exact joinedReturn more
            (ih more.length (by simp only [List.length_cons]; omega) false more rfl)
        exact backslash rest (not_exists.1 hfeed) (not_exists.1 hreturn)
      · exact visible c rest (by simp_all [isGap, isVisible])

end Stepper
