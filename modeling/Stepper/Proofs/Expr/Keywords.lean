import Stepper.Proofs.Expr.Height

/-!
# The parser reads only what can be written

* `Parse.arguments_distinct`: no two keyword arguments of a call have the same name.
* `Parse.expression_wellFormed`: so expressions are well-formed as they are read, at all levels.
* `Program.keywords_distinct`: this holds of every call in a program of a source text.
-/

namespace Stepper

namespace Expr

variable {e : Expr}

theorem WellFormed.proper : e.WellFormed → e.Proper
  | .intro h _ => h

theorem WellFormed.operand {part : Nat × Expr} (hpart : part ∈ e.operands) :
    e.WellFormed → part.2.WellFormed
  | .intro _ h => h part hpart

theorem WellFormed.part {part : Expr} (h : e.WellFormed) (hpart : PartOf e part) :
    part.WellFormed := by
  induction hpart with
  | whole => exact h
  | operand _ hpart ih => exact ih.operand hpart

end Expr

/-- The parsers further in yield what can be written (`Expr.WellFormed`). -/
structure Levels.Written (deeper : Levels) : Prop where
  disjunction : Parse.Ensures deeper.disjunction (·.WellFormed)
  negation : Parse.Ensures deeper.negation (·.WellFormed)
  signed : Parse.Ensures deeper.signed (·.WellFormed)

namespace Parse

/-- The names that are found are different from one another and from `names`, which have come
before. -/
theorem argumentsAfter_distinct (value : Parse Expr) (rounds : List Lexeme) (names : List String) :
    Ensures (argumentsAfter value rounds names) fun found =>
      (found.2.map (·.1)).Nodup ∧ ∀ name ∈ found.2.map (·.1), name ∉ names := by
  induction rounds generalizing names with
  | nil => exact ensures_pure ⟨List.nodup_nil, nofun⟩
  | cons _ rounds ih =>
    refine .after fun t => ?_
    split
    · exact ensures_pure ⟨List.nodup_nil, nofun⟩
    refine .after fun loc => .after fun name? => ?_
    split
    · rename_i name
      dsimp only
      split
      · exact ensures_failAt_bind _ _
      · rename_i hnew
        have hnew : name ∉ names := fun h => hnew (List.contains_iff_mem.2 h)
        refine .after fun e => .after fun more => ?_
        split
        · refine (ih (name :: names)).bind fun found ⟨hdistinct, hnames⟩ => ensures_pure ⟨?_, ?_⟩
          · exact List.nodup_cons.2 ⟨fun h => hnames name h List.mem_cons_self, hdistinct⟩
          · exact List.forall_mem_cons.2
              ⟨hnew, fun n hn h => hnames n hn (List.mem_cons_of_mem _ h)⟩
        · exact ensures_pure ⟨List.nodup_singleton name, List.forall_mem_singleton.2 hnew⟩
    · dsimp only
      split
      · exact ensures_fail_bind _
      · refine .after fun e => .after fun more => ?_
        split
        · exact (ih names).bind fun found hfound => ensures_pure hfound
        · exact ensures_pure ⟨List.nodup_nil, nofun⟩

theorem arguments_distinct (value : Parse Expr) :
    Ensures (arguments value) fun found => (found.2.map (·.1)).Nodup :=
  .after fun rounds => (argumentsAfter_distinct value rounds []).mono fun _ h => h.1

/-- An operator between the sides `left` and `right` can be written if they can. -/
theorem joined_wellFormed {level : Nat} {t : Token} {join : Expr → Expr → Location → Expr}
    (hjoin : joinAt? level t = some join) {left right : Expr} (hleft : left.WellFormed)
    (hright : right.WellFormed) (loc : Location) : (join left right loc).WellFormed := by
  have hproper : (join left right loc).Proper := by
    unfold joinAt? at hjoin
    split at hjoin <;> dsimp only at hjoin
    case h_1 | h_2 =>
      split at hjoin
      · cases hjoin
        trivial
      · cases hjoin
    case h_3 | h_4 =>
      obtain ⟨op, -, rfl⟩ := Option.map_eq_some_iff.1 hjoin
      trivial
    case h_5 => cases hjoin
  refine .intro hproper fun part hpart => ?_
  rcases (joinsSides_of_joinAt? hjoin left right loc).1 part hpart with h | h
  · exact h ▸ hleft
  · exact h ▸ hright

theorem chain_wellFormed {operand : Parse Expr} (level : Nat) {left : Expr}
    (hoperand : Ensures operand (·.WellFormed)) (hleft : left.WellFormed) (links : Nat) :
    Ensures (chain operand (joinAt? level) links left) (·.WellFormed) :=
  ensures_chain (Q := fun _ e => e.WellFormed) (n := 0) hoperand id
    (fun hjoin hleft hright loc => joined_wellFormed hjoin hleft hright loc) hleft links

theorem unary_wellFormed {e : Expr} (he : e.WellFormed) (op : UnaryOp) (loc : Location) :
    (Expr.unary op e loc).WellFormed :=
  .intro trivial (List.forall_mem_singleton.2 he)

section Levels

variable {deeper : Levels} (h : deeper.Written) {room : Nat}
include h

theorem primary_wellFormed : Ensures (primary deeper) (·.WellFormed) := by
  refine .after fun found => ?_
  dsimp only
  split
  case h_3 =>
    exact .after fun _ => .after fun _ => .after fun _ =>
      ensures_pure (.leaf trivial rfl)
  case h_8 => exact .after fun _ => h.disjunction.bind fun e he => .after fun _ => ensures_pure he
  case h_9 =>
    refine .after fun _ => (ensures_items h.disjunction).bind fun es hes =>
      .after fun _ => ensures_pure (.intro trivial ?_)
    exact List.forall_mem_map.2 hes
  case h_10 =>
    refine .after fun _ => (ensures_items (ensures_entry h.disjunction)).bind
      fun entries hentries => .after fun _ => ensures_pure (.intro trivial ?_)
    simp only [Expr.operands, List.forall_mem_append, List.forall_mem_map]
    exact ⟨fun entry he => (hentries entry he).1, fun entry he => (hentries entry he).2⟩
  case h_11 => exact ensures_fail _
  all_goals exact .after fun _ => ensures_pure (.leaf trivial rfl)

theorem postfixed?_wellFormed {e : Expr} (he : e.WellFormed) :
    Ensures (postfixed? deeper e) fun found? => ∀ e' ∈ found?, e'.WellFormed := by
  refine .after fun found => ?_
  split
  · refine .after fun _ =>
      ((ensures_arguments h.disjunction).and (arguments_distinct deeper.disjunction)).bind
        fun arguments ⟨hall, hdistinct⟩ => .after fun _ => ensures_pure ?_
    rintro _ ⟨⟩
    refine .intro hdistinct ?_
    simp only [Expr.operands, List.forall_mem_cons, List.forall_mem_append, List.forall_mem_map]
    exact ⟨he, hall⟩
  · refine .after fun _ => h.disjunction.bind fun key hkey => .after fun _ => ensures_pure ?_
    rintro _ ⟨⟩
    exact .intro trivial (List.forall_mem_cons.2 ⟨he, List.forall_mem_singleton.2 hkey⟩)
  · refine .after fun _ => .after fun name => ensures_pure ?_
    rintro _ ⟨⟩
    exact .intro trivial (List.forall_mem_singleton.2 he)
  · exact ensures_pure (by simp)

theorem postfixes_wellFormed {e : Expr} (he : e.WellFormed) (links : Nat) :
    Ensures (postfixes deeper links e) (·.WellFormed) :=
  ensures_postfixes (Q := fun _ e => e.WellFormed) (n := 0) id (postfixed?_wellFormed h) he links

theorem power_wellFormed : Ensures (power room deeper) (·.WellFormed) := by
  have hpostfixed : Ensures (postfixed room deeper) (·.WellFormed) :=
    (primary_wellFormed h).bind fun _ he => postfixes_wellFormed h he _
  refine hpostfixed.bind fun base hbase => .after fun loc => .after fun raised => ?_
  split
  · exact h.signed.bind fun exponent hexponent => ensures_pure
      (.intro trivial (List.forall_mem_cons.2 ⟨hbase, List.forall_mem_singleton.2 hexponent⟩))
  · exact ensures_pure hbase

theorem signed_wellFormed : Ensures (signed room deeper) (·.WellFormed) := by
  refine .after fun found => ?_
  split
  · exact .after fun _ => h.signed.bind fun e he => ensures_pure (unary_wellFormed he _ _)
  · exact power_wellFormed h

theorem sum_wellFormed : Ensures (sum room deeper) (·.WellFormed) := by
  have hproduct : Ensures (product room deeper) (·.WellFormed) :=
    (signed_wellFormed h).bind fun _ he => chain_wellFormed 6 (signed_wellFormed h) he _
  exact hproduct.bind fun _ he => chain_wellFormed 5 hproduct he _

theorem negation_wellFormed : Ensures (negation room deeper) (·.WellFormed) := by
  refine .after fun loc => .after fun negated => ?_
  split
  · exact h.negation.bind fun e he => ensures_pure (unary_wellFormed he _ _)
  · refine (sum_wellFormed h).bind fun first hfirst => .after fun rounds =>
      (ensures_comparisons (sum_wellFormed h) rounds).bind fun links hlinks => ?_
    split
    · exact ensures_pure hfirst
    · rename_i hsome
      refine ensures_pure (.intro (fun hnil => hsome hnil) ?_)
      exact List.forall_mem_cons.2 ⟨hfirst, List.forall_mem_map.2 hlinks⟩

theorem disjunction_wellFormed : Ensures (disjunction room deeper) (·.WellFormed) := by
  have hconjunction : Ensures (conjunction room deeper) (·.WellFormed) :=
    (negation_wellFormed h).bind fun _ he => chain_wellFormed 2 (negation_wellFormed h) he _
  exact hconjunction.bind fun _ he => chain_wellFormed 1 hconjunction he _

theorem levelsOver_written : (levelsOver room deeper).Written :=
  ⟨disjunction_wellFormed h, negation_wellFormed h, signed_wellFormed h⟩

end Levels

/-- At all levels what is read can be written, by induction on `room`, which is left for further
ones. -/
theorem levels_written (room : Nat) : (levels room).Written := by
  induction room with
  | zero =>
    have hbeyond : beyond.Written := ⟨ensures_fail _, ensures_fail _, ensures_fail _⟩
    exact levelsOver_written hbeyond
  | succ room ih => exact levelsOver_written ih

theorem expression_wellFormed : Ensures expression (·.WellFormed) :=
  (levels_written (maxNesting - 1)).disjunction

end Parse

/-- The names of the keyword arguments of a call are all different, wherever the call stands in the
program `p` of a source text. -/
theorem Program.keywords_distinct {source : String} {p : Program} (h : ofSource source = .ok p)
    {around : List Stmt} {s : Stmt} (hs : Stands p.body around s) {e callee : Expr}
    (he : e ∈ s.exprs) {args : List Expr} {keywords : List (String × Expr)} {loc : Location}
    (hcall : e.PartOf (.call callee args keywords loc)) : (keywords.map (·.1)).Nodup := by
  have hkeeps := Parse.keeps_exprs Parse.expression_wellFormed fun h =>
    ⟨h.operand List.mem_cons_self, h.operand (List.mem_cons_of_mem _ List.mem_cons_self)⟩
  exact (((hs.everywhere (ofSource_everywhere hkeeps h)).keeps e he).part hcall).proper

end Stepper
