import Stepper.Proofs.Stmt.Everywhere

/-!
# Where statements stand

* `Stmt.Placed`: a statement and all statements in its blocks fit what surrounds them, which the
  parser keeps in a `Context`.
* `Parse.keeps_fitsIn`: the parsers of single statements keep to that.
* `Program.ofSource_placed`: so in a program of a source text `break` and `continue` stand in a loop
  of their own function, `return` in a function, and no function in another.
-/

namespace Stepper

namespace Stmt

/-- The context `c` allows a statement of the kind of `s`. -/
def FitsIn (c : Context) (s : Stmt) : Prop :=
  (s.leavesTurn → c.inLoop) ∧ (s.leavesCall → c.inFunction) ∧ (s.isDefinition → ¬ c.inFunction)

/-- The context `c` allows the statement `s`, and so it is with all statements in its blocks. -/
inductive Placed : Context → Stmt → Prop
  | intro {c : Context} {s : Stmt} :
      s.FitsIn c → (∀ block ∈ s.blocks, ∀ t ∈ block, Placed (c.inside s) t) → Placed c s

theorem Placed.fitsIn {c : Context} {s : Stmt} : s.Placed c → s.FitsIn c
  | .intro h _ => h

theorem Placed.block {c : Context} {s : Stmt} {body : List Stmt} (hbody : body ∈ s.blocks) :
    s.Placed c → ∀ t ∈ body, t.Placed (c.inside s)
  | .intro _ h => h body hbody

/-- A statement is `Placed` if `FitsIn` is kept everywhere in it. -/
theorem Everywhere.placed {c : Context} {s : Stmt}
    (h : s.Everywhere (fun c s => s.FitsIn c) c) : s.Placed c := by
  induction h with
  | intro h _ ih => exact .intro h ih

end Stmt

/-- A block `body` whose statements are all placed in `c`. -/
def BlockPlaced (c : Context) (body : List Stmt) : Prop :=
  ∀ s ∈ body, s.Placed c

/-- A statement `s` in a placed program is placed in what surrounds it, `within around`. -/
theorem Stands.placed {program around : List Stmt} {s : Stmt} (h : Stands program around s)
    (hprogram : BlockPlaced .outermost program) : s.Placed (.within around) := by
  induction h with
  | top hs => exact hprogram _ hs
  | inside _ hblock hs ih => exact ih.block hblock _ hs

/-! ## The parser -/

/-- A statement that control does not leave, and that defines no function, fits in every context
`c`. -/
theorem Stmt.fitsIn_of_plain {c : Context} {s : Stmt}
    (h : (s.leavesTurn || s.leavesCall || s.isDefinition) = false) : s.FitsIn c := by
  simp only [Bool.or_eq_false_iff] at h
  obtain ⟨⟨hturn, hcall⟩, hdefinition⟩ := h
  refine ⟨?_, ?_, ?_⟩
  · simp [hturn]
  · simp [hcall]
  · simp [hdefinition]

namespace Parse

variable {c : Context}

theorem expressionStatement_fitsIn : Ensures expressionStatement (·.1.FitsIn c) := by
  have hplain : ∀ r : Stmt × Scope, (r.1.leavesTurn || r.1.leavesCall || r.1.isDefinition) = false →
      Ensures (pure r) (·.1.FitsIn c) := fun r h => ensures_pure (Stmt.fitsIn_of_plain h)
  refine .after fun loc => .after fun e => .after fun assigns => ?_
  split
  · refine .after fun target => .after fun value => .after fun t => ?_
    split
    · exact .after fun _ => hplain _ rfl
    · exact hplain _ rfl
  · refine .after fun t => ?_
    split
    · exact .after fun _ => .after fun target => .after fun value => hplain _ rfl
    · exact hplain _ rfl

theorem simpleStatement_fitsIn : Ensures (simpleStatement c) (·.1.FitsIn c) := by
  refine .after fun found => ?_
  split
  · exact .after fun _ => ensures_pure (Stmt.fitsIn_of_plain rfl)
  · refine .after fun _ => ?_
    split
    · rename_i hloop
      exact ensures_pure ⟨fun _ => hloop, nofun, nofun⟩
    · exact ensures_failAt _ _
  · refine .after fun _ => ?_
    split
    · rename_i hloop
      exact ensures_pure ⟨fun _ => hloop, nofun, nofun⟩
    · exact ensures_failAt _ _
  · refine .after fun _ => ?_
    dsimp only
    split
    · exact ensures_failAt_bind _ _
    · rename_i hfunction
      have hfits (value : Option Expr) : (Stmt.giveBack value found.loc).FitsIn c :=
        ⟨nofun, fun _ => by simpa using hfunction, nofun⟩
      refine .after fun t => ?_
      split
      · exact ensures_pure (hfits none)
      · exact .after fun e => ensures_pure (hfits (some e))
  · exact .after fun _ => .after fun name => .after fun rounds => .after fun names =>
      ensures_pure (Stmt.fitsIn_of_plain rfl)
  · exact expressionStatement_fitsIn

/-- Each parser of a statement keeps `FitsIn` for its context, whatever the expressions are. -/
theorem keeps_fitsIn : Keeps (fun _ => True) fun c s => s.FitsIn c where
  expression _ _ _ _ := trivial
  simple _ := simpleStatement_fitsIn
  conditional _ := ⟨nofun, nofun, nofun⟩
  whileLoop _ := ⟨nofun, nofun, nofun⟩
  forLoop _ := ⟨nofun, nofun, nofun⟩
  define hc _ := ⟨nofun, nofun, fun _ => by simp [hc]⟩

end Parse

/-- The statements of a `source` that is a program are placed. -/
theorem Program.ofSource_placed {source : String} {p : Program} (h : ofSource source = .ok p) :
    BlockPlaced .outermost p.body :=
  fun s hs => (ofSource_everywhere Parse.keeps_fitsIn h s hs).placed

end Stepper
