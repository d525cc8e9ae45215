import Stepper.Proofs.Expr.Levels
import Stepper.Proofs.Stmt.Assignment
import Stepper.Proofs.Stmt.Everywhere

/-!
# How high the nesting limit lets expressions grow

A level of nesting further in has room for one level less, and there a chain of operators has room
for fewer links; but the links of chains that stand on one another are not added up.

* `Expr.deeper`: the parts of an expression for which a level of nesting is used, and `Expr.depth`:
  how many of them stand inside one another. The limit bounds it.
* `heightLimit`: what the chains at all levels make of the height.
* `Program.expression_height`: both hold of all expressions of a program of a source text.
* `Program.expression_tall`: the height alone may be more than the limit.
-/

namespace Stepper

namespace Expr

/-! ## Depth -/

/-- The parts of an expression that stand one level of nesting further in: what is in its brackets,
the operand of a sign or of `not`, and an exponent. -/
def deeper : Expr → List Expr
  | list items _ => items
  | dict entries _ => entries.map (·.1) ++ entries.map (·.2)
  | arith .pow _ exponent _ => [exponent]
  | unary _ operand _ => [operand]
  | call _ args keywords _ => args ++ keywords.map (·.2)
  | index _ key _ => [key]
  | _ => []

theorem exists_operand_of_deeper {e part : Expr} (h : part ∈ e.deeper) :
    ∃ least, (least, part) ∈ e.operands := by
  cases e with
  | list items =>
    exact ⟨1, List.mem_map.2 ⟨part, h, rfl⟩⟩
  | dict entries =>
    refine ⟨1, ?_⟩
    simp only [deeper, operands, List.mem_append, List.mem_map, Prod.mk.injEq, true_and] at h ⊢
    exact h
  | arith op left right =>
    cases op with
    | pow =>
      obtain rfl := List.mem_singleton.1 h
      exact ⟨_, List.mem_cons_of_mem _ List.mem_cons_self⟩
    | _ => cases h
  | unary op operand =>
    obtain rfl := List.mem_singleton.1 h
    exact ⟨_, List.mem_cons_self⟩
  | call callee args keywords =>
    refine ⟨1, List.mem_cons_of_mem _ ?_⟩
    simp only [deeper, List.mem_append, List.mem_map, Prod.mk.injEq, true_and] at h ⊢
    exact h.imp_left fun h => ⟨part, h, rfl⟩
  | index container key =>
    obtain rfl := List.mem_singleton.1 h
    exact ⟨_, List.mem_cons_of_mem _ List.mem_cons_self⟩
  | _ => cases h

theorem sizeOf_deeper {e part : Expr} (h : part ∈ e.deeper) : sizeOf part < sizeOf e := by
  obtain ⟨least, hpart⟩ := exists_operand_of_deeper h
  exact sizeOf_operand hpart

/-- How many levels of nesting `e` uses on the way from its root to a leaf. -/
def depth (e : Expr) : Nat :=
  max (highest (e.operands.attach.map fun part => part.1.2.depth))
    (highest (e.deeper.attach.map fun part => part.1.depth + 1))
termination_by sizeOf e
decreasing_by
  · exact sizeOf_operand part.2
  · exact sizeOf_deeper part.2

theorem depth_le {e : Expr} {n : Nat} :
    e.depth ≤ n ↔ (∀ part ∈ e.operands, part.2.depth ≤ n) ∧ ∀ part ∈ e.deeper, part.depth < n := by
  rw [depth, Nat.max_le, highest_le, highest_le]
  simp only [List.forall_mem_map, List.mem_attach, forall_const, Subtype.forall, Nat.succ_le_iff]

theorem depth_operand {e : Expr} {part : Nat × Expr} (h : part ∈ e.operands) :
    part.2.depth ≤ e.depth :=
  (depth_le.1 (Nat.le_refl e.depth)).1 part h

/-- The parts of `whole`, the parts of these, and so on; the whole is one of them. -/
inductive PartOf (whole : Expr) : Expr → Prop
  | whole : PartOf whole whole
  | operand {e : Expr} {part : Nat × Expr} :
      PartOf whole e → part ∈ e.operands → PartOf whole part.2

/-! ## Bounds -/

/-- The expression `e` uses less than `room` levels of nesting and is no higher than `limit`. -/
structure Fits (room limit : Nat) (e : Expr) : Prop where
  depth : e.depth < room
  height : e.height ≤ limit

variable {room limit limit' : Nat} {e : Expr}

theorem Fits.mono (h : e.Fits room limit) (hle : limit ≤ limit') : e.Fits room limit' :=
  ⟨h.depth, Nat.le_trans h.height hle⟩

theorem Fits.outwards (h : e.Fits room limit) (hle : limit ≤ limit') : e.Fits (room + 1) limit' :=
  ⟨Nat.lt_succ_of_lt h.depth, Nat.le_trans h.height hle⟩

/-- An expression `e` is one higher than its parts, and those further in use a level less. -/
theorem Fits.of_parts (hparts : ∀ part ∈ e.operands, part.2.Fits (room + 1) limit)
    (hdeeper : ∀ part ∈ e.deeper, part.depth < room) : e.Fits (room + 1) (limit + 1) where
  depth := Nat.lt_succ_of_le <|
    depth_le.2 ⟨fun part hpart => Nat.le_of_lt_succ (hparts part hpart).depth, hdeeper⟩
  height := height_le.2 fun part hpart => (hparts part hpart).height

theorem Fits.leaf (hparts : e.operands = []) (hdeeper : e.deeper = []) :
    e.Fits (room + 1) (limit + 1) :=
  .of_parts (by simp [hparts]) (by simp [hdeeper])

theorem Fits.operand {part : Nat × Expr} (h : e.Fits room limit) (hpart : part ∈ e.operands) :
    part.2.Fits room limit :=
  ⟨Nat.lt_of_le_of_lt (depth_operand hpart) h.depth,
    Nat.le_trans (Nat.le_of_lt (height_operand hpart)) h.height⟩

theorem Fits.part {part : Expr} (h : e.Fits room limit) (hpart : PartOf e part) :
    part.Fits room limit := by
  induction hpart with
  | whole => exact h
  | operand _ hpart ih => exact ih.operand hpart

end Expr

/-- The parsers further in yield what fits there, with `room` and `limit`. -/
structure Levels.Bounded (deeper : Levels) (room limit : Nat) : Prop where
  disjunction : Parse.Ensures deeper.disjunction (·.Fits room limit)
  negation : Parse.Ensures deeper.negation (·.Fits room limit)
  signed : Parse.Ensures deeper.signed (·.Fits room limit)

namespace Parse

/-! ## Items and arguments -/

section Items

variable {P : α → Prop} {Q : Expr → Prop}

theorem ensures_items {close : Symbol} {item : Parse α} (hitem : Ensures item P) :
    Ensures (items close item) fun as => ∀ a ∈ as, P a := by
  refine .after fun rounds => ?_
  induction rounds with
  | nil => exact ensures_pure nofun
  | cons _ rounds ih =>
    refine .after fun t => ?_
    split
    · exact ensures_pure nofun
    · refine hitem.bind fun a ha => .after fun more => ?_
      split
      · exact ih.bind fun as has => ensures_pure (List.forall_mem_cons.2 ⟨ha, has⟩)
      · exact ensures_pure (List.forall_mem_singleton.2 ha)

theorem ensures_entry {value : Parse Expr} (hvalue : Ensures value Q) :
    Ensures (entry value) fun entry => Q entry.1 ∧ Q entry.2 :=
  hvalue.bind fun _ hkey => .after fun _ => hvalue.bind fun _ hvalue => ensures_pure ⟨hkey, hvalue⟩

theorem ensures_arguments {value : Parse Expr} (hvalue : Ensures value Q) :
    Ensures (arguments value) fun found =>
      (∀ e ∈ found.1, Q e) ∧ ∀ keyword ∈ found.2, Q keyword.2 := by
  let Good (found : List Expr × List (String × Expr)) : Prop :=
    (∀ e ∈ found.1, Q e) ∧ ∀ keyword ∈ found.2, Q keyword.2
  refine .after fun rounds => ?_
  generalize ([] : List String) = names
  induction rounds generalizing names with
  | nil => exact ensures_pure ⟨nofun, nofun⟩
  | cons _ rounds ih =>
    have hmore (put : List Expr × List (String × Expr) → List Expr × List (String × Expr))
        (hput : ∀ found, Good found → Good (put found)) (names : List String) (more : Bool) :
        Ensures (if more then argumentsAfter value rounds names >>= fun found => pure (put found)
          else pure ([], []) >>= fun found => pure (put found)) Good := by
      split
      · exact (ih names).bind fun found hfound => ensures_pure (hput found hfound)
      · exact ensures_pure (hput ([], []) ⟨nofun, nofun⟩)
    refine .after fun t => ?_
    split
    · exact ensures_pure ⟨nofun, nofun⟩
    refine .after fun loc => .after fun name? => ?_
    split
    · rename_i name
      dsimp only
      split
      · exact ensures_failAt_bind _ _
      · exact hvalue.bind fun e he => .after fun more =>
          hmore (fun found => (found.1, (name, e) :: found.2))
            (fun _ hall => ⟨hall.1, List.forall_mem_cons.2 ⟨he, hall.2⟩⟩) _ more
    · dsimp only
      split
      · exact ensures_fail_bind _
      · exact hvalue.bind fun e he => .after fun more =>
          hmore (fun found => (e :: found.1, found.2))
            (fun _ hall => ⟨List.forall_mem_cons.2 ⟨he, hall.1⟩, hall.2⟩) _ more

theorem ensures_comparisons {operand : Parse Expr} (hoperand : Ensures operand Q)
    (rounds : List Lexeme) :
    Ensures (comparisons operand rounds) fun links => ∀ link ∈ links, Q link.2 := by
  induction rounds with
  | nil => exact ensures_pure nofun
  | cons _ rounds ih =>
    refine .after fun op? => ?_
    split
    · exact ensures_pure nofun
    · exact hoperand.bind fun right hright => ih.bind fun links hlinks =>
        ensures_pure (List.forall_mem_cons.2 ⟨hright, hlinks⟩)

end Items

/-! ## Chains -/

section Chains

variable {Q : Nat → Expr → Prop} {R : Expr → Prop} {e : Expr} {n : Nat}

/-- A chain may end before it has all its `links`. -/
theorem of_links_unused (hgrow : ∀ {n e}, Q n e → Q (n + 1) e) (he : Q n e) (links : Nat) :
    Q (n + links) e := by
  induction links with
  | zero => exact he
  | succ links ih => exact hgrow ih

/-- What holds of a chain of `n` links holds of one with more, if each link keeps it: `Q n` of what
stands on the left and `R` of the operand on the right give `Q (n + 1)` of both together. -/
theorem ensures_chain {operand : Parse Expr} {level : Nat} (hoperand : Ensures operand R)
    (hgrow : ∀ {n e}, Q n e → Q (n + 1) e)
    (hjoin : ∀ {n t join left right}, joinAt? level t = some join → Q n left → R right →
      ∀ loc, Q (n + 1) (join left right loc))
    (he : Q n e) (links : Nat) :
    Ensures (chain operand (joinAt? level) links e) (Q (n + links)) := by
  induction links generalizing e n with
  | zero =>
    rw [chain]
    refine .after fun found => ?_
    split
    · exact ensures_pure he
    · exact .after fun _ => ensures_fail _
  | succ links ih =>
    rw [chain]
    refine .after fun found => ?_
    split
    · exact ensures_pure (of_links_unused hgrow he _)
    · rename_i join hfound
      refine .after fun _ => hoperand.bind fun right hright => ?_
      rw [Nat.add_comm links, ← Nat.add_assoc]
      exact ih (hjoin hfound he hright found.loc)

theorem ensures_postfixes {deeper : Levels} (hgrow : ∀ {n e}, Q n e → Q (n + 1) e)
    (hpostfixed : ∀ {n e}, Q n e →
      Ensures (postfixed? deeper e) fun found? => ∀ e' ∈ found?, Q (n + 1) e')
    (he : Q n e) (links : Nat) : Ensures (postfixes deeper links e) (Q (n + links)) := by
  induction links generalizing e n with
  | zero =>
    refine .after fun t => ?_
    split
    · exact ensures_fail _
    · exact ensures_pure he
  | succ links ih =>
    refine (hpostfixed he).bind fun found? hfound => ?_
    split
    · exact ensures_pure (of_links_unused hgrow he _)
    · rw [Nat.add_comm links, ← Nat.add_assoc]
      exact ih (hfound _ rfl)

end Chains

/-- The two sides are the parts of what `join` makes of them, and none is further in. -/
def JoinsSides (join : Expr → Expr → Location → Expr) : Prop :=
  ∀ left right loc, (∀ part ∈ (join left right loc).operands, part.2 = left ∨ part.2 = right) ∧
    (join left right loc).deeper = []

theorem joinsSides_of_joinAt? {level : Nat} {t : Token} {join : Expr → Expr → Location → Expr}
    (h : joinAt? level t = some join) : JoinsSides join := by
  have harith {op : ArithOp} (hop : op ≠ .pow) : JoinsSides (.arith op) := by
    refine fun left right loc => ⟨by simp [Expr.operands], ?_⟩
    cases op <;> first | rfl | exact absurd rfl hop
  have hlogic (op : LogicOp) : JoinsSides (.logic op) :=
    fun left right loc => ⟨by simp [Expr.operands], rfl⟩
  unfold joinAt? at h
  split at h <;> dsimp only at h
  case h_1 | h_2 =>
    split at h
    · cases h
      exact hlogic _
    · cases h
  case h_3 =>
    obtain ⟨op, hop, rfl⟩ := Option.map_eq_some_iff.1 h
    refine harith ?_
    unfold additiveOp? at hop
    split at hop <;> cases hop <;> decide
  case h_4 =>
    obtain ⟨op, hop, rfl⟩ := Option.map_eq_some_iff.1 h
    refine harith ?_
    unfold multiplicativeOp? at hop
    split at hop <;> cases hop <;> decide
  case h_5 => cases h

variable {room limit : Nat}

/-- A chain is higher than its operands by its `links`, at most. -/
theorem chain_fits {operand : Parse Expr} (level : Nat) {links height : Nat} {left : Expr}
    (hoperand : Ensures operand (·.Fits (room + 1) limit)) (hleft : left.Fits (room + 1) height)
    (hle : limit ≤ height) :
    Ensures (chain operand (joinAt? level) links left) (·.Fits (room + 1) (height + links)) := by
  -- What stands on the left of a link is at least as high as an operand on the right may be.
  let Q (height : Nat) (e : Expr) : Prop := e.Fits (room + 1) height ∧ limit ≤ height
  have hgrow {n : Nat} {e : Expr} (he : Q n e) : Q (n + 1) e :=
    ⟨he.1.mono (Nat.le_succ n), Nat.le_succ_of_le he.2⟩
  refine (ensures_chain (Q := Q) hoperand hgrow ?_ ⟨hleft, hle⟩ links).mono fun _ h => h.1
  rintro n t join left right hjoin ⟨hleft, hle⟩ hright loc
  obtain ⟨hparts, hdeeper⟩ := joinsSides_of_joinAt? hjoin left right loc
  refine ⟨.of_parts (fun part hpart => ?_) (by simp [hdeeper]), Nat.le_succ_of_le hle⟩
  rcases hparts part hpart with h | h
  · exact h ▸ hleft
  · exact h ▸ hright.mono hle

/-! ## Levels -/

theorem unary_fits {e : Expr} (he : e.Fits room limit) (op : UnaryOp) (loc : Location) :
    (Expr.unary op e loc).Fits (room + 1) (limit + 1) :=
  .of_parts (List.forall_mem_singleton.2 (he.outwards (Nat.le_refl limit)))
    (List.forall_mem_singleton.2 he.depth)

section Levels

variable {deeper : Levels} (h : deeper.Bounded room limit)
include h

theorem primary_fits : Ensures (primary deeper) (·.Fits (room + 1) (limit + 1)) := by
  refine .after fun found => ?_
  dsimp only
  split
  case h_3 => exact .after fun _ => .after fun _ => .after fun _ => ensures_pure (.leaf rfl rfl)
  case h_8 =>
    refine .after fun _ => h.disjunction.bind fun e he => .after fun _ => ensures_pure ?_
    exact he.outwards (Nat.le_succ limit)
  case h_9 =>
    refine .after fun _ => (ensures_items h.disjunction).bind fun es hes =>
      .after fun _ => ensures_pure (.of_parts ?_ fun e he => (hes e he).depth)
    exact List.forall_mem_map.2 fun e he => (hes e he).outwards (Nat.le_refl limit)
  case h_10 =>
    refine .after fun _ =>
      (ensures_items (ensures_entry h.disjunction)).bind fun entries hentries =>
        .after fun _ => ensures_pure (.of_parts ?_ ?_)
    · simp only [Expr.operands, List.forall_mem_append, List.forall_mem_map]
      exact ⟨fun entry he => (hentries entry he).1.outwards (Nat.le_refl limit),
        fun entry he => (hentries entry he).2.outwards (Nat.le_refl limit)⟩
    · simp only [Expr.deeper, List.forall_mem_append, List.forall_mem_map]
      exact ⟨fun entry he => (hentries entry he).1.depth,
        fun entry he => (hentries entry he).2.depth⟩
  case h_11 => exact ensures_fail _
  all_goals exact .after fun _ => ensures_pure (.leaf rfl rfl)

theorem postfixed?_fits {e : Expr} {height : Nat} (he : e.Fits (room + 1) height)
    (hle : limit ≤ height) :
    Ensures (postfixed? deeper e) fun found? => ∀ e' ∈ found?, e'.Fits (room + 1) (height + 1) := by
  refine .after fun found => ?_
  split
  · refine .after fun _ => (ensures_arguments h.disjunction).bind fun arguments hall =>
      .after fun _ => ensures_pure ?_
    rintro _ ⟨⟩
    refine .of_parts ?_ ?_
    · simp only [Expr.operands, List.forall_mem_cons, List.forall_mem_append, List.forall_mem_map]
      exact ⟨he, fun arg ha => (hall.1 arg ha).outwards hle,
        fun keyword hk => (hall.2 keyword hk).outwards hle⟩
    · simp only [Expr.deeper, List.forall_mem_append, List.forall_mem_map]
      exact ⟨fun arg ha => (hall.1 arg ha).depth, fun keyword hk => (hall.2 keyword hk).depth⟩
  · refine .after fun _ => h.disjunction.bind fun key hkey => .after fun _ => ensures_pure ?_
    rintro _ ⟨⟩
    refine .of_parts ?_ (List.forall_mem_singleton.2 hkey.depth)
    exact List.forall_mem_cons.2 ⟨he, List.forall_mem_singleton.2 (hkey.outwards hle)⟩
  · refine .after fun _ => .after fun name => ensures_pure ?_
    rintro _ ⟨⟩
    exact .of_parts (List.forall_mem_singleton.2 he) (List.forall_mem_nil _)
  · exact ensures_pure (by simp)

theorem postfixes_fits {e : Expr} {links height : Nat} (he : e.Fits (room + 1) height)
    (hle : limit ≤ height) :
    Ensures (postfixes deeper links e) (·.Fits (room + 1) (height + links)) := by
  let Q (height : Nat) (e : Expr) : Prop := e.Fits (room + 1) height ∧ limit ≤ height
  have hgrow {n : Nat} {e : Expr} (he : Q n e) : Q (n + 1) e :=
    ⟨he.1.mono (Nat.le_succ n), Nat.le_succ_of_le he.2⟩
  have hpostfixed {n : Nat} {e : Expr} (he : Q n e) :
      Ensures (postfixed? deeper e) fun found? => ∀ e' ∈ found?, Q (n + 1) e' :=
    (postfixed?_fits h he.1 he.2).mono fun _ hfits e' he' =>
      ⟨hfits e' he', Nat.le_succ_of_le he.2⟩
  exact (ensures_postfixes (Q := Q) hgrow hpostfixed ⟨he, hle⟩ links).mono fun _ h => h.1

theorem postfixed_fits :
    Ensures (postfixed room deeper) (·.Fits (room + 1) (limit + 1 + (room - 1))) :=
  (primary_fits h).bind fun _ he => postfixes_fits h he (Nat.le_succ limit)

/-- An exponent adds one to the height, and where there is none further in (`room` is `0`), nothing
does. -/
theorem power_fits : Ensures (power room deeper) (·.Fits (room + 1) (limit + 1 + room)) := by
  refine (postfixed_fits h).bind fun base hbase => .after fun loc => .after fun raised => ?_
  split
  · refine h.signed.bind fun exponent hexponent => ensures_pure ?_
    have hroom := Nat.zero_lt_of_lt hexponent.depth
    -- The exponent stands one level further in, where `room - 1` bounds the links of its chains.
    have hpower :
        (Expr.arith .pow base exponent loc).Fits (room + 1) (limit + 1 + (room - 1) + 1) := by
      refine .of_parts ?_ (List.forall_mem_singleton.2 hexponent.depth)
      have hheight : limit ≤ limit + 1 + (room - 1) := by omega
      exact List.forall_mem_cons.2
        ⟨hbase, List.forall_mem_singleton.2 (hexponent.outwards hheight)⟩
    exact hpower.mono (by omega)
  · exact ensures_pure (hbase.mono (by omega))

theorem signed_fits : Ensures (signed room deeper) (·.Fits (room + 1) (limit + 1 + room)) := by
  refine .after fun found => ?_
  split
  · exact .after fun _ => h.signed.bind fun e he =>
      ensures_pure ((unary_fits he _ _).mono (Nat.le_add_right _ _))
  · exact power_fits h

theorem product_fits :
    Ensures (product room deeper) (·.Fits (room + 1) (limit + 1 + room + (room - 1))) :=
  (signed_fits h).bind fun _ he => chain_fits 6 (signed_fits h) he (Nat.le_refl _)

theorem sum_fits :
    Ensures (sum room deeper) (·.Fits (room + 1) (limit + 1 + room + (room - 1) + (room - 1))) :=
  (product_fits h).bind fun _ he => chain_fits 5 (product_fits h) he (Nat.le_refl _)

/-- However many comparisons there are, they add one to the height of their operands, which are
sums. -/
theorem comparison_fits : Ensures (comparison room deeper)
    (·.Fits (room + 1) (limit + 1 + room + (room - 1) + (room - 1) + 1)) := by
  refine (sum_fits h).bind fun first hfirst => .after fun rounds =>
    (ensures_comparisons (sum_fits h) rounds).bind fun links hlinks => ?_
  -- Without links the expression is the sum, else the comparison stands on the sums.
  split
  · exact ensures_pure (hfirst.mono (Nat.le_succ _))
  · refine ensures_pure (.of_parts ?_ nofun)
    exact List.forall_mem_cons.2 ⟨hfirst, List.forall_mem_map.2 hlinks⟩

theorem negation_fits : Ensures (negation room deeper)
    (·.Fits (room + 1) (limit + 1 + room + (room - 1) + (room - 1) + 1)) := by
  refine .after fun loc => .after fun negated => ?_
  split
  · exact h.negation.bind fun e he => ensures_pure ((unary_fits he _ _).mono (by omega))
  · exact comparison_fits h

theorem conjunction_fits : Ensures (conjunction room deeper)
    (·.Fits (room + 1) (limit + 1 + room + (room - 1) + (room - 1) + 1 + (room - 1))) :=
  (negation_fits h).bind fun _ he => chain_fits 2 (negation_fits h) he (Nat.le_refl _)

theorem disjunction_fits : Ensures (disjunction room deeper)
    (·.Fits (room + 1)
      (limit + 1 + room + (room - 1) + (room - 1) + 1 + (room - 1) + (room - 1))) :=
  (conjunction_fits h).bind fun _ he =>
    chain_fits 1 (conjunction_fits h) he (Nat.le_refl _)

end Levels

end Parse

/-- How high an expression with room for so many further levels of nesting may be. With room for
`room + 1`, five chains of `room` links stand on one another, at the levels whose operators group to
the left; a power, a comparison, and the expression one level further in come on top. -/
def heightLimit : Nat → Nat
  | 0 => 2
  | room + 1 => heightLimit room + 5 * room + 3

namespace Parse

theorem levelsOver_bounded {deeper : Levels} {room limit : Nat} (h : deeper.Bounded room limit)
    {height : Nat} (hheight : limit + room + 4 * (room - 1) + 2 = height) :
    (levelsOver room deeper).Bounded (room + 1) height := by
  refine ⟨(disjunction_fits h).mono fun e he => ?_, (negation_fits h).mono fun e he => ?_,
    (signed_fits h).mono fun e he => ?_⟩ <;> exact he.mono (by omega)

theorem levels_bounded (room : Nat) : (levels room).Bounded (room + 1) (heightLimit room) := by
  induction room with
  | zero =>
    have hbeyond : beyond.Bounded 0 0 := ⟨ensures_fail _, ensures_fail _, ensures_fail _⟩
    exact levelsOver_bounded hbeyond rfl
  | succ room ih => exact levelsOver_bounded ih (by simp only [heightLimit]; omega)

theorem expression_fits :
    Ensures expression (·.Fits maxNesting (heightLimit (maxNesting - 1))) :=
  (levels_bounded (maxNesting - 1)).disjunction

end Parse

/-- The nesting limit in the program `p` of a source text: every `part` of every expression `e` uses
less than `maxNesting` levels of nesting inside one another, and the chains at each of these levels
make it no higher than `heightLimit` says. -/
theorem Program.expression_height {source : String} {p : Program} (h : ofSource source = .ok p)
    {around : List Stmt} {s : Stmt} (hs : Stands p.body around s) {e part : Expr}
    (he : e ∈ s.exprs) (hpart : e.PartOf part) :
    part.depth < maxNesting ∧ part.height ≤ heightLimit (maxNesting - 1) := by
  have hkeeps := Parse.keeps_exprs Parse.expression_fits fun h =>
    ⟨h.operand List.mem_cons_self, h.operand (List.mem_cons_of_mem _ List.mem_cons_self)⟩
  have hfits := ((hs.everywhere (ofSource_everywhere hkeeps h)).keeps e he).part hpart
  exact ⟨hfits.depth, hfits.height⟩

/-- The name `x` in `it = [-x]` stands two levels further in than the list. -/
theorem Program.expression_height_sign : ∃ p s e x,
    ofSource "it = [-x]" = .ok p ∧ Stands p.body [] s ∧ e ∈ s.exprs ∧
      e.PartOf (.name "x" x) ∧ (Expr.name "x" x).depth < maxNesting ∧
      (Expr.name "x" x).height ≤ heightLimit (maxNesting - 1) := by
  let sign : Expr := .unary .neg (.name "x" ⟨1, 8⟩) ⟨1, 7⟩
  let e : Expr := .list [sign] ⟨1, 6⟩
  let s : Stmt := .assign (.name "it") e ⟨1, 1⟩
  have hsource : ofSource "it = [-x]" = .ok ⟨[s], ["it = [-x]"]⟩ := by
    rw [ofSource_of_lexemes (by cbv)]
    rfl
  have hs : Stands [s] [] s := .top (List.mem_singleton.2 rfl)
  have he : e ∈ s.exprs := List.mem_singleton.2 rfl
  have hsign : (1, sign) ∈ e.operands := List.mem_singleton.2 rfl
  have hoperand : (7, Expr.name "x" ⟨1, 8⟩) ∈ sign.operands := List.mem_singleton.2 rfl
  have hname : e.PartOf (.name "x" ⟨1, 8⟩) := .operand (.operand .whole hsign) hoperand
  exact ⟨_, s, e, ⟨1, 8⟩, hsource, hs, he, hname, expression_height hsource hs he hname⟩

/-! ## An expression that is higher than the limit -/

/-- The tokens of `1` with `k` minus signs in front. -/
def minusTokens (k : Nat) : List Token :=
  List.replicate k (.symbol .minus) ++ [.int 1]

theorem lexes_minusTokens (k : Nat) : Lexes (List.replicate k '-' ++ ['1']) [] (minusTokens k) := by
  have hone : Lexes ['1'] [] [.int 1] := Lexes.natural (n := 1) (by decide) delimited_nil
  induction k with
  | zero => exact hone
  | succ k ih =>
    have hscan : scanToken '-' (List.replicate k '-' ++ ['1']) =
        .ok ⟨.symbol .minus, Symbol.minus.text.toList, List.replicate k '-' ++ ['1']⟩ := by
      cases k <;> rfl
    have hsign : Lexes ('-' :: (List.replicate k '-' ++ ['1'])) (List.replicate k '-' ++ ['1'])
        [.symbol .minus] := Lexes.symbol (by decide) hscan
    exact hsign.append ih

/-- The sum of `1` and `1` with `k` minus signs in front. -/
def minusText (k : Nat) : String :=
  "1+" ++ String.ofList (List.replicate k '-' ++ ['1'])

theorem lexes_minusText (k : Nat) :
    Lexes (minusText k).toList [] (.int 1 :: .symbol .plus :: minusTokens k) := by
  have hone : Lexes ('1' :: '+' :: (List.replicate k '-' ++ ['1']))
      ('+' :: (List.replicate k '-' ++ ['1'])) [.int 1] := by
    have hscan : scanNumeral ('1' :: '+' :: (List.replicate k '-' ++ ['1'])) =
        ⟨⟨['1'], none, none⟩, ['1'], '+' :: (List.replicate k '-' ++ ['1'])⟩ := rfl
    have hvalue : Numeral.token ⟨['1'], none, none⟩ = .ok (.int 1) := rfl
    refine Lexes.token (s := ⟨.int 1, ['1'], _⟩) (by decide) ?_
    have hdigit : Text.isAsciiDigit '1' = true := by decide
    rw [scanToken, if_neg (by decide), hdigit, Bool.true_or, if_pos rfl, hscan]
    simp only [hvalue]
    rfl
  have hplus : Lexes ('+' :: (List.replicate k '-' ++ ['1'])) (List.replicate k '-' ++ ['1'])
      [.symbol .plus] := by
    refine Lexes.symbol (by decide) ?_
    cases k <;> rfl
  have htext : (minusText k).toList = '1' :: '+' :: (List.replicate k '-' ++ ['1']) := by
    simp [minusText]
  rw [htext]
  exact hone.append (hplus.append (lexes_minusTokens k))

namespace Parse

variable {k : Nat} {ls rest : List Lexeme} {l : Lexeme}

theorem int_reads (hl : l.token = .int 1) :
    Reads (atLevel room 10) (l :: rest) rest (fun e => 1 ≤ e.height) False := by
  obtain ⟨_, loc, text⟩ := l
  obtain rfl := hl
  exact .of_run (a := .int 1 loc) rfl (Expr.height_pos _)

theorem minusTokens_lead (hls : Spells (minusTokens k) ls rest) : 7 ≤ (ahead ls).token.lead := by
  cases k with
  | zero | succ =>
    obtain ⟨l, after, rfl, hl, -⟩ := hls
    rw [ahead_cons, hl]
    decide

/-- Each sign uses one level of nesting, so `k` of them need `k ≤ room`. -/
theorem minusTokens_reads (hk : k ≤ room) (hls : Spells (minusTokens k) ls rest)
    (hstops : Stops 7 rest) :
    Reads (atLevel room 7) ls rest (fun e => k + 1 ≤ e.height) False := by
  -- On the number of signs: each is read one level further in, and adds one to the height.
  induction k generalizing room ls with
  | zero =>
    obtain ⟨l, after, rfl, hl, rfl⟩ := hls
    refine (int_reads hl).descend_to (by decide) (by decide) (by decide) ?_ hstops
    rw [ahead_cons, hl]
    decide
  | succ k ih =>
    obtain ⟨l, after, rfl, hl, hafter⟩ := hls
    obtain ⟨room, rfl⟩ : ∃ inner, room = inner + 1 := ⟨room - 1, by omega⟩
    refine Reaches.of_run (bind_of_ok next_run) ?_
    rw [ahead_cons, hl]
    refine Reaches.of_run (bind_of_ok (advance_run (by rw [hl]; rfl))) ?_
    rw [beneath_signed]
    refine (ih (Nat.le_of_succ_le_succ hk) hafter).bind fun e he => Reads.pure ?_
    have := Expr.height_operand (e := .unary .neg e l.loc) List.mem_cons_self
    exact Nat.lt_of_le_of_lt he this

/-- The signs use the same levels whether they stand in a sum or not: `k < maxNesting` is enough. -/
theorem minusSum_reads (hk : k < maxNesting)
    (hls : Spells (.int 1 :: .symbol .plus :: minusTokens k) ls rest) (hstops : Stops 1 rest) :
    Reads expression ls rest (fun e => k + 2 ≤ e.height) False := by
  obtain ⟨one, _, rfl, hone, plus, after, rfl, hplus, hafter⟩ := hls
  have hlead {high : Nat} (hhigh : high ≤ 10) :
      high ≤ (ahead (one :: plus :: after)).token.lead := by
    rw [ahead_cons, hone]
    exact hhigh
  have hplusStops : Stops 6 (plus :: after) := by
    rw [Stops, ahead_cons, hplus]
    decide
  have hfirst : Reads (atLevel (maxNesting - 1) 6) (one :: plus :: after) (plus :: after)
      (fun e => 1 ≤ e.height) False :=
    (int_reads hone).descend_to (by decide) (by decide) (by decide) (hlead (by decide)) hplusStops
  have hsecond : Reads (atLevel (maxNesting - 1) 6) after rest (fun e => k + 1 ≤ e.height) False :=
    (minusTokens_reads (Nat.le_sub_one_of_lt hk) hafter (hstops.mono (by decide))).descend_to
      (by decide) (by decide) (by decide) (minusTokens_lead hafter) (hstops.mono (by decide))
  have hsum : Reads (atLevel (maxNesting - 1) 5) (one :: plus :: after) rest
      (fun e => k + 2 ≤ e.height) False := by
    rw [atLevel_of_left (by decide)]
    refine hfirst.bind fun left _ => ?_
    have hjoin : joinAt? 5 plus.token = some (.arith .add) := by rw [hplus]; rfl
    refine Reaches.of_run (chain_of_some hjoin (by rw [hplus]; rfl) 97 left) ?_
    refine hsecond.bind fun right hright => ?_
    have hhigher := Expr.height_operand (e := .arith .add left right plus.loc)
      (List.mem_cons_of_mem _ List.mem_cons_self)
    have hend : Stops 5 rest := hstops.mono (by decide)
    exact .of_eq (tailAt_of_stops hend 97 _) (Nat.lt_of_le_of_lt hright hhigher)
  rw [expression, levels_eq]
  exact hsum.descend_to (by decide) (by decide) (by decide) (hlead (by decide)) hstops

end Parse

/-- The sum with `k < maxNesting` signs on its right is a program of a source text, of height
`k + 2`. -/
theorem Program.ofSource_minusText {k : Nat} (hk : k < maxNesting) :
    ∃ p s e, ofSource ("it = " ++ minusText k) = .ok p ∧ s ∈ p.body ∧ e ∈ s.exprs ∧
      k + 2 ≤ e.height := by
  have hread : Parse.ExpressionIs (.int 1 :: .symbol .plus :: minusTokens k)
      fun e => k + 2 ≤ e.height := by
    intro ls rest hls hstops
    obtain ⟨e, he, hrun⟩ | ⟨hfalse, -⟩ := Parse.minusSum_reads hk hls hstops
    · exact ⟨e, hrun, he⟩
    · exact hfalse.elim
  obtain ⟨p, e, loc, hp, hbody, he⟩ := ofSource_assign_of_lexes (lexes_minusText k) hread
  refine ⟨p, .assign (.name "it") e loc, e, hp, ?_, List.mem_singleton.2 rfl, he⟩
  rw [hbody]
  exact List.mem_singleton.2 rfl

/-- The sum `1+` with 99 minus signs is higher than `maxNesting`, because the link of the sum does
not count where the signs are read. -/
theorem Program.expression_tall :
    ∃ p s e, ofSource ("it = 1+" ++ String.ofList (List.replicate 99 '-') ++ "1") = .ok p ∧
      s ∈ p.body ∧ e ∈ s.exprs ∧ maxNesting < e.height := by
  obtain ⟨p, s, e, hp, hs, he, hheight⟩ := ofSource_minusText (k := 99) (by decide)
  have htext : "it = 1+" ++ String.ofList (List.replicate 99 '-') ++ "1" =
      "it = " ++ minusText 99 := by decide
  exact ⟨p, s, e, htext ▸ hp, hs, he, hheight⟩

end Stepper
