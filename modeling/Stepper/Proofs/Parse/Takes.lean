import Stepper.Proofs.Loop
import Stepper.Proofs.Parse.Reading

/-!
# How many lexemes parsers take

* `Parse.TakesFrom`, `Parse.Takes`: a parser takes lexemes from the front, at least so many, and
  never the end of the text. It is shown along the steps of a parser: what one step takes is off the
  count of the next (`TakesFrom.bind`).
* `HasEnd`: lexemes among which the end of the text is. Parsers keep it.
* `Parse.RunsInRounds`: a recursion that is given the lexemes left as its rounds, and each round of
  which takes a lexeme. It is a loop without such a bound (`RunsInRounds.loop`).
-/

namespace Stepper

/-- The end of the text is among the lexemes `ls`. -/
def HasEnd (ls : List Lexeme) : Prop :=
  ∃ l ∈ ls, l.token.isEndOfFile = true

theorem HasEnd.ne_nil {ls : List Lexeme} (h : HasEnd ls) : ls ≠ [] := by
  rintro rfl
  obtain ⟨l, hl, -⟩ := h
  cases hl

theorem HasEnd.of_append {taken rest : List Lexeme} (h : HasEnd (taken ++ rest))
    (htaken : ∀ l ∈ taken, l.token.isEndOfFile = false) : HasEnd rest := by
  obtain ⟨l, hl, hend⟩ := h
  rcases List.mem_append.1 hl with hl | hl
  · rw [htaken l hl] at hend
    cases hend
  · exact ⟨l, hl, hend⟩

namespace Parse

/-- From `ls` on, the parser `x` takes at least as many lexemes as `least` says of its result, and
not the end of the text. -/
def TakesFrom (ls : List Lexeme) (x : Parse α) (least : α → Nat) : Prop :=
  ∀ a rest, x ls = .ok (a, rest) →
    ∃ taken, ls = taken ++ rest ∧ least a ≤ taken.length ∧ ∀ l ∈ taken, l.token.isEndOfFile = false

/-- The parser `x` takes at least as many lexemes as `least` says from any list. -/
def Takes (x : Parse α) (least : α → Nat) : Prop :=
  ∀ ls, TakesFrom ls x least

variable {x : Parse α} {f : α → Parse β} {p p' : α → Nat} {q : β → Nat} {ls : List Lexeme}

theorem TakesFrom.mono (h : TakesFrom ls x p) (hle : ∀ a, p' a ≤ p a) : TakesFrom ls x p' := by
  intro a rest hrun
  obtain ⟨taken, hls, hleast, htaken⟩ := h a rest hrun
  exact ⟨taken, hls, Nat.le_trans (hle a) hleast, htaken⟩

theorem Takes.mono (h : Takes x p) (hle : ∀ a, p' a ≤ p a) : Takes x p' :=
  fun ls => (h ls).mono hle

/-- What takes some lexemes takes `0` at least. -/
theorem Takes.some (h : Takes x p) : Takes x fun _ => 0 :=
  h.mono fun _ => Nat.zero_le _

theorem TakesFrom.bind (hx : TakesFrom ls x p)
    (hf : ∀ a rest, TakesFrom rest (f a) fun b => q b - p a) : TakesFrom ls (x >>= f) q := by
  intro b rest hrun
  change Except.bind (x ls) _ = _ at hrun
  cases hfirst : x ls with
  | error e => rw [hfirst] at hrun; cases hrun
  | ok r =>
    obtain ⟨a, mid⟩ := r
    rw [hfirst] at hrun
    obtain ⟨taken, rfl, hleast, htaken⟩ := hx a mid hfirst
    obtain ⟨more, rfl, hmore, hmoreTaken⟩ := hf a mid b rest hrun
    refine ⟨taken ++ more, (List.append_assoc ..).symm, ?_, ?_⟩
    · dsimp only at hmore
      rw [List.length_append]
      omega
    · exact fun l hl => (List.mem_append.1 hl).elim (htaken l) (hmoreTaken l)

/-- A step `x` of which it does not matter how much it takes. -/
theorem TakesFrom.after (hx : TakesFrom ls x p) (hf : ∀ a, Takes (f a) q) :
    TakesFrom ls (x >>= f) q :=
  hx.bind fun a rest => (hf a rest).mono fun _ => Nat.sub_le ..

theorem Takes.bind (hx : Takes x p) (hf : ∀ a, Takes (f a) fun b => q b - p a) :
    Takes (x >>= f) q :=
  fun ls => (hx ls).bind fun a => hf a

theorem Takes.after (hx : Takes x p) (hf : ∀ a, Takes (f a) q) : Takes (x >>= f) q :=
  fun ls => (hx ls).after hf

theorem TakesFrom.pure {a : α} (h : p a = 0) : TakesFrom ls (pure a) p := by
  intro a' rest hrun
  cases hrun
  exact ⟨[], rfl, by rw [h]; exact Nat.le_refl 0, nofun⟩

theorem takes_pure {a : α} (h : p a = 0) : Takes (pure a) p :=
  fun _ => .pure h

/-! ## Single steps -/

theorem TakesFrom.next {f : Lexeme → Parse β} (h : TakesFrom ls (f (ahead ls)) q) :
    TakesFrom ls (next >>= f) q := h

theorem TakesFrom.peek {f : Token → Parse β} (h : TakesFrom ls (f (ahead ls).token) q) :
    TakesFrom ls (peek >>= f) q := h

theorem TakesFrom.peekSecond {f : Option Token → Parse β}
    (h : TakesFrom ls (f (ls[1]?.map (·.token))) q) : TakesFrom ls (peekSecond >>= f) q := h

theorem takes_here : Takes here fun _ => 0 := by
  intro ls a rest hrun
  cases hrun
  exact ⟨[], rfl, Nat.le_refl 0, nofun⟩

theorem takes_peek : Takes peek fun _ => 0 := by
  intro ls a rest hrun
  cases hrun
  exact ⟨[], rfl, Nat.le_refl 0, nofun⟩

theorem takes_remaining : Takes remaining fun _ => 0 := by
  intro ls a rest hrun
  cases hrun
  exact ⟨[], rfl, Nat.le_refl 0, nofun⟩

theorem takes_failAt (loc : Location) (fault : SyntaxFault) : Takes (failAt loc fault) p :=
  nofun

theorem takes_fail (fault : SyntaxFault) : Takes (fail fault) p :=
  takes_here.after fun loc => takes_failAt loc fault

/-- One token is taken that is not `endOfFile`. -/
theorem takesFrom_advance (h : (ahead ls).token.isEndOfFile = false) :
    TakesFrom ls advance fun _ => 1 := by
  cases ls with
  | nil => cases h
  | cons l ls =>
    intro a rest hrun
    rw [ahead_cons] at h
    rw [advance_run h] at hrun
    cases hrun
    exact ⟨[l], rfl, Nat.le_refl 1, by simpa using h⟩

theorem TakesFrom.advance {f : Unit → Parse β} (h : (ahead ls).token.isEndOfFile = false)
    (hf : Takes (f ()) fun b => q b - 1) : TakesFrom ls (advance >>= f) q :=
  (takesFrom_advance h).bind fun _ => hf

theorem takes_advance : Takes advance fun _ => 0 := by
  intro ls
  by_cases h : (ahead ls).token.isEndOfFile = false
  · exact (takesFrom_advance h).mono fun _ => Nat.zero_le 1
  · intro a rest hrun
    refine ⟨[], ?_, Nat.le_refl 0, nofun⟩
    cases ls with
    | nil => cases hrun; rfl
    | cons l ls =>
      rw [ahead_cons, Bool.not_eq_false] at h
      simp only [advance, h, if_true] at hrun
      cases hrun
      rfl

/-- A token that satisfies `test` is not the end of the text, which does not. -/
theorem isEndOfFile_of_test {test : Token → Bool} {t : Token} (htest : test .endOfFile = false)
    (h : test t = true) : t.isEndOfFile = false := by
  cases t <;> first | rfl | (rw [htest] at h; cases h)

theorem takes_acceptIf {test : Token → Bool} (htest : test .endOfFile = false) :
    Takes (acceptIf test) Bool.toNat := by
  refine fun ls => TakesFrom.peek ?_
  split
  · rename_i h
    exact .advance (isEndOfFile_of_test htest h) (takes_pure rfl)
  · exact .pure rfl

theorem takes_accept (s : Symbol) : Takes (accept s) Bool.toNat :=
  takes_acceptIf rfl

theorem takes_acceptKeyword (k : Keyword) : Takes (acceptKeyword k) Bool.toNat :=
  takes_acceptIf rfl

theorem takes_expectIf {test : Token → Bool} (htest : test .endOfFile = false) (what : String) :
    Takes (expectIf test what) fun _ => 1 := by
  refine fun ls => TakesFrom.peek ?_
  split
  · rename_i h
    exact takesFrom_advance (isEndOfFile_of_test htest h)
  · exact takes_fail _ ls

theorem takes_expect (s : Symbol) (what : String) : Takes (expect s what) fun _ => 1 :=
  takes_expectIf rfl what

theorem takes_identifier : Takes identifier fun _ => 1 := by
  refine fun ls => TakesFrom.peek ?_
  split
  · rename_i h
    exact .advance (by rw [h]; rfl) (takes_pure rfl)
  · exact takes_fail _ ls

/-! ## Loops -/

/-- A turn takes one lexeme at least, unless it is the last. -/
def turnCost : Turn σ α → Nat
  | .stop _ => 0
  | .again _ _ => 1

/-- The recursion is given `rounds`, drops one in every `turn`, and stops when they are used up.
Each turn but the last takes a lexeme. -/
structure RunsInRounds (rounds : List Lexeme → σ → Parse α) (turn : σ → Parse (Turn σ α)) :
    Prop where
  nil : ∀ s, Takes (rounds [] s) fun _ => 0
  cons : ∀ r rs s, rounds (r :: rs) s = turn s >>= Turn.run (rounds rs)
  takes : ∀ s, Takes (turn s) turnCost

variable {rounds : List Lexeme → σ → Parse α} {turn : σ → Parse (Turn σ α)}

theorem RunsInRounds.takes_rounds (h : RunsInRounds rounds turn) (rs : List Lexeme) (s : σ) :
    Takes (rounds rs s) fun _ => 0 := by
  induction rs generalizing s with
  | nil => exact h.nil s
  | cons r rs ih =>
    rw [h.cons]
    refine (h.takes s).after fun t => ?_
    cases t with
    | stop a => exact takes_pure rfl
    | again s' finish =>
      exact Takes.bind (x := rounds rs s') (ih s') fun a => takes_pure rfl

/-- Among lexemes with an end, the recursion runs until one of its turns stops it: `rounds` are
never used up, as there are as many as lexemes. -/
theorem RunsInRounds.loop (h : RunsInRounds rounds turn) :
    Loops HasEnd (fun s ls => rounds ls s ls) turn := by
  refine .of_rounds h.cons HasEnd.ne_nil fun s ls s' finish rest hls hturn => ?_
  obtain ⟨taken, rfl, hleast, htaken⟩ := h.takes s ls _ rest hturn
  exact ⟨hls.of_append htaken, taken, List.length_pos_iff.1 hleast, rfl⟩

end Parse

end Stepper
