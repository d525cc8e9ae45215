/-!
# Loops that use up a list

* `Turn`: what a turn of a loop comes to, and `Turn.run`: the loop after it.
* `Loops`: a function runs as a loop of given turns, each of which takes an item or is the last.
* `Loops.runTurns_eq`: such a loop is over after one turn more than there are items.
* `Loops.of_unfolds`: a function is a loop if each of its turns tells what it comes to.
* `Loops.of_rounds`: a recursion that drops a round in every turn, and is given as many rounds as
  there are items, is the loop without such a bound.
* `Loops.ends`: what holds where a loop stops.
-/

namespace Stepper

/-- A reader takes items of `ι` from the front of a list and yields an `α`, or fails with an `ε`. -/
abbrev Reader (ι ε α : Type) := StateT (List ι) (Except ε) α

/-- What a turn of a loop with states in `σ` comes to. -/
inductive Turn (σ α : Type) where
  /-- The loop is over. -/
  | stop (result : α)
  /-- The loop goes on in another state; `finish` completes what comes of it. -/
  | again (state : σ) (finish : α → α)

variable {ι ε σ α : Type}

/-- What `loop` comes to after a turn. -/
def Turn.run (loop : σ → Reader ι ε α) : Turn σ α → Reader ι ε α
  | stop a => pure a
  | again s finish => finish <$> loop s

/-- The turn with `f` done in the end. -/
def Turn.complete (f : α → α) : Turn σ α → Turn σ α
  | stop a => stop (f a)
  | again s finish => again s (f ∘ finish)

/-- At most so many turns of a loop; the result is missing (`none`) if it is not over by then. -/
def runTurns (turn : σ → Reader ι ε (Turn σ α)) : Nat → σ → Reader ι ε (Option α)
  | 0, _ => pure none
  | n + 1, s => do
    match ← turn s with
    | .stop a => return some a
    | .again s finish => return (← runTurns turn n s).map finish

/-- On the lists with `on`, a `turn` that is not the last takes at least one item. -/
def Progresses (on : List ι → Prop) (turn : σ → Reader ι ε (Turn σ α)) : Prop :=
  ∀ s xs s' finish rest, on xs → turn s xs = .ok (.again s' finish, rest) →
    on rest ∧ ∃ taken, taken ≠ [] ∧ xs = taken ++ rest

/-- On the lists with `on`, the function `loop` runs by `turn`, and a turn that is not the last
takes at least one item. -/
structure Loops (on : List ι → Prop) (loop : σ → Reader ι ε α)
    (turn : σ → Reader ι ε (Turn σ α)) : Prop where
  turns : ∀ s xs, on xs → loop s xs = (turn s >>= Turn.run loop) xs
  progress : Progresses on turn

variable {on : List ι → Prop} {loop : σ → Reader ι ε α} {turn : σ → Reader ι ε (Turn σ α)}
  {s s' : σ} {xs rest : List ι} {a : α} {finish : α → α}

theorem Progresses.shorter (h : Progresses on turn) (hon : on xs)
    (hturn : turn s xs = .ok (.again s' finish, rest)) : on rest ∧ rest.length < xs.length := by
  obtain ⟨hrest, taken, htaken, rfl⟩ := h _ _ _ _ _ hon hturn
  have := List.length_pos_iff.2 htaken
  refine ⟨hrest, ?_⟩
  rw [List.length_append]
  omega

/-- The loop on `xs` after its first turn. -/
theorem Loops.run (h : Loops on loop turn) (hon : on xs) :
    loop s xs = match turn s xs with
      | .error e => .error e
      | .ok (.stop a, rest) => .ok (a, rest)
      | .ok (.again s' finish, rest) => (loop s' rest).map fun r => (finish r.1, r.2) := by
  rw [h.turns s xs hon]
  change Except.bind (turn s xs) _ = _
  rcases turn s xs with e | ⟨_ | ⟨s', finish⟩, rest⟩
  · rfl
  · rfl
  · change Except.bind (loop s' rest) _ = Except.map _ (loop s' rest)
    cases loop s' rest <;> rfl

/-- The loop is over after one turn more than there are items in `xs`. -/
theorem Loops.runTurns_eq (h : Loops on loop turn) (hon : on xs) {n : Nat} (hn : xs.length < n) :
    runTurns turn n s xs = (loop s xs).map fun r => (some r.1, r.2) := by
  induction n generalizing s xs with
  | zero => omega
  | succ n ih =>
    rw [h.run hon]
    change Except.bind (turn s xs) _ = _
    rcases hturn : turn s xs with e | ⟨_ | ⟨s', finish⟩, rest⟩
    · rfl
    · rfl
    · obtain ⟨hrest, hlt⟩ := h.progress.shorter hon hturn
      change Except.bind (runTurns turn n s' rest) _ = Except.map _ (Except.map _ (loop s' rest))
      rw [ih hrest (by omega)]
      cases loop s' rest <;> rfl

/-- What holds of the list wherever a turn is the last, `Q`, holds where the loop is over. -/
theorem Loops.ends {Q : List ι → Prop} (h : Loops on loop turn)
    (hstop : ∀ {s xs a rest}, on xs → turn s xs = .ok (.stop a, rest) → Q rest) (hon : on xs)
    (hloop : loop s xs = .ok (a, rest)) : Q rest := by
  induction hn : xs.length using Nat.strongRecOn generalizing s xs a with
  | ind n ih =>
    rw [h.run hon] at hloop
    rcases hturn : turn s xs with e | ⟨b | ⟨s', finish⟩, mid⟩
    · rw [hturn] at hloop; cases hloop
    · rw [hturn] at hloop
      cases hloop
      exact hstop hon hturn
    · rw [hturn] at hloop
      obtain ⟨hmid, hlt⟩ := h.progress.shorter hon hturn
      cases hmore : loop s' mid with
      | error e => simp [hmore, Except.map] at hloop
      | ok r =>
        obtain ⟨b, end'⟩ := r
        simp only [hmore, Except.map, Except.ok.injEq, Prod.mk.injEq] at hloop
        obtain ⟨-, rfl⟩ := hloop
        exact ih mid.length (by omega) hmid hmore rfl

/-- What `loop` comes to on a list, told by a turn of it: that of the turn if it is the last, and
what it comes to after the turn if that takes an item. -/
inductive Unfolds (loop : σ → Reader ι ε α) (s : σ) :
    List ι → Except ε (Turn σ α × List ι) → Prop
  | fails {xs : List ι} {e : ε} (h : loop s xs = .error e) : Unfolds loop s xs (.error e)
  | stops {xs rest : List ι} {a : α} (h : loop s xs = .ok (a, rest)) :
      Unfolds loop s xs (.ok (.stop a, rest))
  | goesOn {s' : σ} {finish : α → α} {xs rest : List ι} (taken : List ι) (htaken : taken ≠ [])
      (hxs : xs = taken ++ rest)
      (h : loop s xs = (loop s' rest).map fun r => (finish r.1, r.2)) :
      Unfolds loop s xs (.ok (.again s' finish, rest))

/-- A turn that begins by passing over the items `skipped`. -/
theorem Unfolds.after {s₁ : σ} {ys : List ι} {outcome : Except ε (Turn σ α × List ι)} {f : α → α}
    (h : Unfolds loop s₁ ys outcome) (skipped : List ι) (hxs : xs = skipped ++ ys)
    (hloop : loop s xs = (loop s₁ ys).map fun r => (f r.1, r.2)) :
    Unfolds loop s xs (outcome.map fun r => (r.1.complete f, r.2)) := by
  cases h with
  | fails h => exact .fails (by rw [hloop, h]; rfl)
  | stops h => exact .stops (by rw [hloop, h]; rfl)
  | @goesOn s' finish _ rest taken htaken hys h =>
    refine .goesOn (skipped ++ taken) (by simp [htaken]) (by rw [hxs, hys, List.append_assoc]) ?_
    rw [hloop, h]
    cases loop s' rest <;> rfl

/-- A function `loop` that is told by its turns on any list is a loop. -/
theorem Loops.of_unfolds (h : ∀ s xs, Unfolds loop s xs (turn s xs)) :
    Loops (fun _ => True) loop turn where
  turns s xs _ := by
    change _ = Except.bind (turn s xs) _
    have hunfolds := h s xs
    generalize turn s xs = outcome at hunfolds ⊢
    cases hunfolds with
    | fails h => exact h
    | stops h => exact h
    | @goesOn s' finish _ rest taken htaken hxs h =>
      rw [h]
      change _ = Except.bind (loop s' rest) _
      cases loop s' rest <;> rfl
  progress s xs s' finish rest _ hturn := by
    have hunfolds := h s xs
    rw [hturn] at hunfolds
    cases hunfolds with
    | goesOn taken htaken hxs h => exact ⟨trivial, taken, htaken, hxs⟩

/-! ## Bounded recursions -/

section Rounds

variable {rounds : List ι → σ → Reader ι ε α}
  (hrounds : ∀ r rs s, rounds (r :: rs) s = turn s >>= Turn.run (rounds rs))
  (hon : ∀ {xs}, on xs → xs ≠ []) (hturn : Progresses on turn)
include hrounds hon hturn

/-- Rounds beyond the number of items in `xs` change nothing. -/
theorem rounds_irrelevant (rs rs' : List ι) (hxs : on xs) (hle : xs.length ≤ rs.length)
    (hle' : xs.length ≤ rs'.length) : rounds rs s xs = rounds rs' s xs := by
  induction rs generalizing rs' s xs with
  | nil => exact absurd (List.eq_nil_of_length_eq_zero (Nat.le_zero.1 hle)) (hon hxs)
  | cons r rs ih =>
    cases rs' with
    | nil => exact absurd (List.eq_nil_of_length_eq_zero (Nat.le_zero.1 hle')) (hon hxs)
    | cons r' rs' =>
      rw [hrounds, hrounds]
      change Except.bind (turn s xs) _ = Except.bind (turn s xs) _
      rcases hfirst : turn s xs with e | ⟨_ | ⟨s', finish⟩, rest⟩
      · rfl
      · rfl
      · -- What is left is shorter, so one round less on both sides is still enough.
        obtain ⟨hrest, hlt⟩ := hturn.shorter hxs hfirst
        rw [List.length_cons] at hle hle'
        have hmore := ih (s := s') rs' hrest (by omega) (by omega)
        change Except.bind (rounds rs s' rest) _ = Except.bind (rounds rs' s' rest) _
        rw [hmore]

/-- A recursion that is given as many rounds as there are items in `xs` is a loop. -/
theorem Loops.of_rounds : Loops on (fun s xs => rounds xs s xs) turn where
  turns := by
    intro s xs hxs
    cases xs with
    | nil => exact absurd rfl (hon hxs)
    | cons x xs =>
      rw [hrounds]
      change Except.bind (turn s (x :: xs)) _ = Except.bind (turn s (x :: xs)) _
      rcases hfirst : turn s (x :: xs) with e | ⟨_ | ⟨s', finish⟩, rest⟩
      · rfl
      · rfl
      · obtain ⟨hrest, hlt⟩ := hturn.shorter hxs hfirst
        rw [List.length_cons] at hlt
        have hmore := rounds_irrelevant (s := s') hrounds hon hturn xs rest hrest (by omega)
          (Nat.le_refl _)
        change Except.bind (rounds xs s' rest) _ = Except.bind (rounds rest s' rest) _
        rw [hmore]
  progress := hturn

end Rounds

end Stepper
