import Stepper.Program

/-!
# What parsers yield

* `Parse.Ensures`: a property of whatever a parser yields, on any lexemes. It is shown for a parser
  along its steps; a step whose result plays no part is passed over by `Ensures.after`.
* `Program.exists_of_ofSource`: the program of a text against its lexemes and lines.
* `Program.ensures_ofSource`: what the parser of statements ensures holds of the programs of texts.
-/

namespace Stepper

namespace Parse

/-- Whatever the parser `x` yields has the property `Q`. -/
def Ensures (x : Parse α) (Q : α → Prop) : Prop :=
  ∀ ls a rest, x ls = .ok (a, rest) → Q a

variable {x : Parse α} {f : α → Parse β} {P : α → Prop} {Q : β → Prop}

theorem Ensures.bind (hx : Ensures x P) (hf : ∀ a, P a → Ensures (f a) Q) :
    Ensures (x >>= f) Q := by
  intro ls b rest h
  change Except.bind (x ls) _ = _ at h
  cases hfirst : x ls with
  | error e => rw [hfirst] at h; cases h
  | ok r =>
    rw [hfirst] at h
    exact hf r.1 (hx ls r.1 r.2 hfirst) r.2 b rest h

theorem Ensures.after (hf : ∀ a, Ensures (f a) Q) : Ensures (x >>= f) Q := by
  have hx : Ensures x fun _ => True := fun _ _ _ _ => trivial
  exact hx.bind fun a _ => hf a

theorem Ensures.mono {P' : α → Prop} (hx : Ensures x P) (hP : ∀ a, P a → P' a) : Ensures x P' :=
  fun ls a rest hrun => hP a (hx ls a rest hrun)

theorem Ensures.and {P' : α → Prop} (hx : Ensures x P) (hx' : Ensures x P') :
    Ensures x fun a => P a ∧ P' a :=
  fun ls a rest hrun => ⟨hx ls a rest hrun, hx' ls a rest hrun⟩

theorem ensures_pure {a : α} (h : P a) : Ensures (pure a) P := by
  intro ls b rest hls
  cases hls
  exact h

theorem ensures_failAt (loc : Location) (fault : SyntaxFault) :
    Ensures (failAt loc fault : Parse α) P :=
  nofun

theorem ensures_fail (fault : SyntaxFault) : Ensures (fail fault : Parse α) P :=
  .after fun loc => ensures_failAt loc fault

/-- Nothing comes after a failure, so `f` does not matter. -/
theorem ensures_failAt_bind (loc : Location) (fault : SyntaxFault) :
    Ensures (failAt loc fault >>= f) Q := by
  have hnothing : Ensures (failAt loc fault : Parse α) fun _ => False := ensures_failAt loc fault
  exact hnothing.bind fun _ h => h.elim

theorem ensures_fail_bind (fault : SyntaxFault) : Ensures (fail fault >>= f) Q := by
  have hnothing : Ensures (fail fault : Parse α) fun _ => False := ensures_fail fault
  exact hnothing.bind fun _ h => h.elim

end Parse

/-- The program `p` of `source` is what the parser yields on its lexemes `ls`, with its lines. -/
theorem Program.exists_of_ofSource {source : String} {p : Program} (h : ofSource source = .ok p) :
    ∃ ls rest, lexemes source.toList = .ok ls ∧ Parse.statements ls = .ok (p.body, rest) ∧
      p.lines = Text.lines source := by
  rw [ofSource] at h
  cases hlexemes : lexemes source.toList with
  | error e => rw [hlexemes] at h; cases h
  | ok ls =>
    rw [hlexemes] at h
    change Except.bind (Parse.statements ls) _ = _ at h
    cases hbody : Parse.statements ls with
    | error e => rw [hbody] at h; cases h
    | ok r =>
      rw [hbody] at h
      cases h
      exact ⟨ls, r.2, rfl, hbody, rfl⟩

theorem Program.ensures_ofSource {Q : List Stmt → Prop} (hQ : Parse.Ensures Parse.statements Q)
    {source : String} {p : Program} (h : ofSource source = .ok p) : Q p.body := by
  obtain ⟨ls, rest, -, hbody, -⟩ := exists_of_ofSource h
  exact hQ ls p.body rest hbody

end Stepper
