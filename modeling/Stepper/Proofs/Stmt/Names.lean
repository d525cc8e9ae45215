import Stepper.Stmt.Parser

/-!
# The names of a function's own frame

* `Stmt.bound`, `Stmt.declared`: the names that a statement itself binds, and those that it declares
  to be global.
* `Inside`: a statement stands in a block, at any depth of conditionals and loops.
* `Scope.Of`: a scope has just the names of the statements inside a block. The parser builds scopes
  as it reads: `Scope.Of.append`, `Scope.of_statement` are its steps.
* `Function.Scoped`: the parameters of a function are all different, and its own names are they and
  what its body binds and nowhere declares global.
-/

namespace Stepper

namespace Stmt

/-- The blocks of a conditional or a loop. The block of a definition belongs to another function. -/
def arms : Stmt → List (List Stmt)
  | conditional branches otherwise _ => branches.map (·.body) ++ otherwise.toList
  | whileLoop _ body _ | forLoop _ _ body _ => [body]
  | _ => []

/-- The names that the statement itself binds: that of an assignment, or the `var` of a `for`
loop. -/
def bound : Stmt → List String
  | assign target _ _ | augment target _ _ _ => target.bound
  | forLoop var _ _ _ => [var]
  | _ => []

/-- The names that the statement itself declares to be global, if it is `global names`. -/
def declared : Stmt → List String
  | global names _ => names
  | _ => []

end Stmt

/-- The statement `s` stands in a block, at any depth of conditionals and loops. -/
inductive Inside (s : Stmt) : List Stmt → Prop
  | here {body : List Stmt} : s ∈ body → Inside s body
  | deeper {body arm : List Stmt} {outer : Stmt} :
      outer ∈ body → arm ∈ outer.arms → Inside s arm → Inside s body

/-- The `name` is among those that `own` gives for some statement inside `body`. -/
def NamedIn (own : Stmt → List String) (body : List Stmt) (name : String) : Prop :=
  ∃ s, Inside s body ∧ name ∈ own s

section NamedIn

variable {own : Stmt → List String} {body : List Stmt} {name : String}

theorem inside_append {s : Stmt} {rest : List Stmt} :
    Inside s (body ++ rest) ↔ Inside s body ∨ Inside s rest := by
  constructor
  · rintro (h | ⟨houter, harm, h⟩)
    · exact (List.mem_append.1 h).imp .here .here
    · exact (List.mem_append.1 houter).imp (.deeper · harm h) (.deeper · harm h)
  · rintro ((h | ⟨houter, harm, h⟩) | (h | ⟨houter, harm, h⟩))
    · exact .here (List.mem_append_left _ h)
    · exact .deeper (List.mem_append_left _ houter) harm h
    · exact .here (List.mem_append_right _ h)
    · exact .deeper (List.mem_append_right _ houter) harm h

theorem not_namedIn_nil : ¬ NamedIn own [] name := by
  rintro ⟨s, h | ⟨h, -, -⟩, -⟩
  · cases h
  · cases h

theorem namedIn_append {rest : List Stmt} :
    NamedIn own (body ++ rest) name ↔ NamedIn own body name ∨ NamedIn own rest name := by
  simp only [NamedIn, inside_append, or_and_right, exists_or]

/-- The names of one statement `s` are its own and those of its arms. -/
theorem namedIn_singleton {s : Stmt} :
    NamedIn own [s] name ↔ name ∈ own s ∨ ∃ arm ∈ s.arms, NamedIn own arm name := by
  constructor
  · rintro ⟨t, h | ⟨houter, harm, h⟩, hname⟩
    · obtain rfl := List.mem_singleton.1 h
      exact .inl hname
    · obtain rfl := List.mem_singleton.1 houter
      exact .inr ⟨_, harm, t, h, hname⟩
  · rintro (hname | ⟨arm, harm, t, h, hname⟩)
    · exact ⟨s, .here (List.mem_singleton_self s), hname⟩
    · exact ⟨t, .deeper (List.mem_singleton_self s) harm h, hname⟩

end NamedIn

/-! ## Scopes -/

namespace Scope

/-- The `scope` has just the names of the statements inside `blocks`. -/
structure OfBlocks (scope : Scope) (blocks : List (List Stmt)) : Prop where
  assigned : ∀ name, name ∈ scope.assigned ↔ ∃ body ∈ blocks, NamedIn Stmt.bound body name
  globals : ∀ name, name ∈ scope.globals ↔ ∃ body ∈ blocks, NamedIn Stmt.declared body name

/-- The `scope` has just the names of the statements inside `body`. -/
structure Of (scope : Scope) (body : List Stmt) : Prop where
  assigned : ∀ name, name ∈ scope.assigned ↔ NamedIn Stmt.bound body name
  globals : ∀ name, name ∈ scope.globals ↔ NamedIn Stmt.declared body name

variable {scope more : Scope} {body rest : List Stmt} {blocks : List (List Stmt)}

theorem append_empty (scope : Scope) : scope ++ empty = scope := by
  change Scope.append scope empty = scope
  simp [Scope.append, empty]

theorem of_empty : empty.Of [] :=
  ⟨fun _ => iff_of_false (List.not_mem_nil) not_namedIn_nil,
    fun _ => iff_of_false (List.not_mem_nil) not_namedIn_nil⟩

theorem Of.append (h : scope.Of body) (hmore : more.Of rest) :
    (scope ++ more).Of (body ++ rest) where
  assigned name := by rw [namedIn_append, ← h.assigned, ← hmore.assigned]; exact List.mem_append
  globals name := by rw [namedIn_append, ← h.globals, ← hmore.globals]; exact List.mem_append

theorem ofBlocks_nil : empty.OfBlocks [] :=
  ⟨fun _ => by simp [empty], fun _ => by simp [empty]⟩

theorem Of.cons (h : scope.Of body) (hmore : more.OfBlocks blocks) :
    (scope ++ more).OfBlocks (body :: blocks) where
  assigned name := by
    simp only [List.mem_cons, exists_eq_or_imp]
    rw [← h.assigned, ← hmore.assigned]
    exact List.mem_append
  globals name := by
    simp only [List.mem_cons, exists_eq_or_imp]
    rw [← h.globals, ← hmore.globals]
    exact List.mem_append

theorem Of.ofBlocks (h : scope.Of body) : scope.OfBlocks [body] where
  assigned name := by simp only [List.mem_singleton, exists_eq_left, h.assigned]
  globals name := by simp only [List.mem_singleton, exists_eq_left, h.globals]

/-- The names of a statement `s`: its own, and then those of its arms. -/
theorem of_statement {s : Stmt} (h : scope.OfBlocks s.arms) :
    ((⟨s.bound, s.declared⟩ : Scope) ++ scope).Of [s] where
  assigned name := by rw [namedIn_singleton, ← h.assigned]; exact List.mem_append
  globals name := by rw [namedIn_singleton, ← h.globals]; exact List.mem_append

end Scope

/-! ## Functions -/

/-- The parameters of `f` are all different, and `f.locals` are the parameters and the names that
some statement inside the body binds and none declares global. -/
structure Function.Scoped (f : Function) : Prop where
  params : f.params.Nodup
  locals : ∀ name, name ∈ f.locals ↔ name ∈ f.params ∨
    NamedIn Stmt.bound f.body name ∧ ¬ NamedIn Stmt.declared f.body name

/-- The names that a definition takes over from the scope of its `body`. -/
theorem Scope.Of.mem_locals {scope : Scope} {body : List Stmt} (h : scope.Of body)
    {params : List String} {name : String} :
    name ∈ scope.locals params ↔ name ∈ params ∨
      NamedIn Stmt.bound body name ∧ ¬ NamedIn Stmt.declared body name := by
  rw [← h.assigned, ← h.globals, locals, List.mem_eraseDups, List.mem_append, List.mem_filter]
  simp

end Stepper
