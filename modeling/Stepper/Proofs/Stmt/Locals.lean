import Stepper.Proofs.Stmt.Placement

/-!
# What is local to a function

The parser collects names while it reads a body, and never looks at the body again.

* `Parse.keeps_scoped`: every definition that it reads is scoped.
* `Program.ofSource_scoped`: so are all functions of a program of a source text.
* `Program.locals_exact`: their own names are the parameters, and what the body binds and nowhere
  declares global.
-/

namespace Stepper

/-- Each parser of a statement keeps to it that functions are `Scoped`, whatever the expressions
are. -/
theorem Parse.keeps_scoped :
    Keeps (fun _ => True) fun _ s => ∀ f, s = .define f → f.Scoped where
  expression _ _ _ _ := trivial
  simple c ls r rest hrun f hf := by
    have hblocks := (simpleStatement_simple c ls r rest hrun).1
    rw [hf] at hblocks
    cases hblocks
  conditional _ := nofun
  whileLoop _ := nofun
  forLoop _ := nofun
  define _ hscoped f hf := Stmt.define.inj hf ▸ hscoped

/-- The functions of the program `p` of a source text are `Scoped`. -/
theorem Program.ofSource_scoped {source : String} {p : Program} (h : ofSource source = .ok p)
    {around : List Stmt} {f : Function} (hf : Stands p.body around (.define f)) : f.Scoped :=
  (hf.everywhere (ofSource_everywhere Parse.keeps_scoped h)).keeps f rfl

/-- A `name` is local to a function `f` of `p` if it is a parameter, or if some assignment to the
name itself, or some `for` loop over it, stands `Inside` the body of `f` and no declaration there
makes it global. Nothing else matters: not what stands outside of the body, and not what is assigned
to a subscript. -/
theorem Program.locals_exact {source : String} {p : Program} (h : ofSource source = .ok p)
    {around : List Stmt} {f : Function} (hf : Stands p.body around (.define f)) (name : String) :
    name ∈ f.locals ↔ name ∈ f.params ∨
      (∃ s, Inside s f.body ∧ name ∈ s.bound) ∧ ¬ ∃ s, Inside s f.body ∧ name ∈ s.declared :=
  (ofSource_scoped h hf).locals name

/-- A loop in a function binds two names, and the function declares one of them `global` after
that. -/
theorem Program.locals_exact_loop :
    let f : Function :=
      ⟨"f", ["a"],
        [.forLoop "i" (.name "a" ⟨2, 11⟩) [.augment (.name "n") .add (.name "i" ⟨2, 19⟩) ⟨2, 14⟩]
          ⟨2, 2⟩, .global ["n"] ⟨3, 2⟩], ["a", "i"], ⟨1, 1⟩⟩
    let source := "def f(a):\n for i in a: n += i\n global n"
    let p : Program := ⟨[.define f], ["def f(a):", " for i in a: n += i", " global n"]⟩
    ofSource source = .ok p ∧ Stands p.body [] (.define f) ∧
      ("i" ∈ f.locals ↔ "i" ∈ f.params ∨ (∃ s, Inside s f.body ∧ "i" ∈ s.bound) ∧
        ¬ ∃ s, Inside s f.body ∧ "i" ∈ s.declared) ∧
      ¬ ("n" ∈ f.params ∨ (∃ s, Inside s f.body ∧ "n" ∈ s.bound) ∧
        ¬ ∃ s, Inside s f.body ∧ "n" ∈ s.declared) := by
  intro f source p
  have hsource : ofSource source = .ok p := by
    unfold source p f
    rw [ofSource_of_lexemes (by cbv)]
    rfl
  have hf : Stands p.body [] (.define f) := .top List.mem_cons_self
  exact ⟨hsource, hf, locals_exact hsource hf "i",
    fun hn => absurd ((locals_exact hsource hf "n").2 hn) (by decide)⟩

end Stepper
