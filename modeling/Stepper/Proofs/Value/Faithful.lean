import Stepper.Proofs.Execution.Hooks
import Stepper.Proofs.Stmt.Assignment
import Stepper.Proofs.Value.Literal

/-!
# A value is what its text evaluates to

* `Program.ofSource_assign`: the program that assigns the text of a tree to a name. Any text with
  the same tokens does (`Program.ofSource_assign_of_tokens`).
* `Expr.eval_datum`: the expression of a tree evaluates to a value that is the tree.
* `Store.repr_faithful`: so the program binds the name to such a value.
-/

namespace Stepper

/-! ## The program -/

/-- A `text` with the tokens of the expression of a tree `d` makes, in an assignment to `it`, a
program of one statement. -/
theorem Program.ofSource_assign_of_tokens {depth : Nat} {d : Datum} {text : String}
    (hd : d.Literal depth) (hdepth : depth + 2 < maxNesting)
    (hlex : Lexes text.toList [] d.expr.tokens) :
    ∃ p e loc, Program.ofSource ("it = " ++ text) = .ok p ∧
      p.body = [.assign (.name "it") e loc] ∧ e.unplaced = d.expr := by
  obtain ⟨he, hnesting⟩ := hd.wellFormed_expr
  rw [← hd.unplaced_expr]
  exact ofSource_assign_of_lexes hlex fun _ _ hls hstops =>
    Parse.expression_of_nesting he (Nat.lt_of_le_of_lt hnesting hdepth) hls hstops

/-- So does `d.text`, the text of the tree. -/
theorem Program.ofSource_assign {depth : Nat} {d : Datum} (hd : d.Literal depth)
    (hdepth : depth + 2 < maxNesting) :
    ∃ p e loc, Program.ofSource ("it = " ++ d.text) = .ok p ∧
      p.body = [.assign (.name "it") e loc] ∧ e.unplaced = d.expr := by
  have hlex : Lexes (d.text.toList ++ []) [] d.expr.tokens := hd.lexes delimited_nil
  rw [List.append_nil] at hlex
  exact ofSource_assign_of_tokens hd hdepth hlex

/-! ## Evaluation -/

/-- The store `s'` has all containers of `s`, as they are there. -/
structure Store.Extends (s s' : Store) : Prop where
  lists : ∀ {place : Nat} {items : Array Value}, s.lists[place]? = some items →
    s'.lists[place]? = some items
  dicts : ∀ {place : Nat} {d : Dict}, s.dicts[place]? = some d → s'.dicts[place]? = some d

namespace Store

variable {s s' s'' : Store}

theorem Extends.rfl : s.Extends s := ⟨id, id⟩

theorem Extends.trans (h : s.Extends s') (h' : s'.Extends s'') : s.Extends s'' :=
  ⟨fun hp => h'.lists (h.lists hp), fun hp => h'.dicts (h.dicts hp)⟩

theorem getElem?_push_of_some {as : Array α} {i : Nat} {a b : α} (h : as[i]? = some a) :
    (as.push b)[i]? = some a := by
  have hi := (Array.getElem?_eq_some_iff.1 h).1
  rw [Array.getElem?_push_lt hi]
  exact (Array.getElem?_eq_getElem hi).symm.trans h

theorem extends_addList (s : Store) (items : Array Value) : s.Extends (s.addList items).2 :=
  ⟨getElem?_push_of_some, id⟩

theorem extends_addDict (s : Store) (d : Dict) : s.Extends (s.addDict d).2 :=
  ⟨id, getElem?_push_of_some⟩

/-- What a value `v` is does not change when containers are added. -/
theorem Holds.mono {v : Value} {d : Datum} {depth : Nat} (hd : d.Literal depth)
    (hext : s.Extends s') (h : s.Holds v d) : s'.Holds v d := by
  induction hd generalizing v with
  | scalar =>
    cases h with
    | scalar => exact .scalar _
  | @list depth ds _ ih =>
    cases h with
    | list hplace hitems =>
      exact .list (hext.lists hplace) (forall₂_of_mem hitems fun _ d hmem h => ih d hmem h)
  | @dict depth entries _ _ _ ih =>
    cases h with
    | dict hplace hkeys hvalues =>
      refine .dict (hext.dicts hplace) hkeys (forall₂_of_mem hvalues fun v d hmem h => ?_)
      obtain ⟨entry, hentry, rfl⟩ := List.mem_map.1 hmem
      exact ih entry hentry h

end Store

namespace Evaluation

/-- From the state `m` on, the evaluation `x` yields a result with `Q` and adds containers at
most. -/
def Builds (x : Evaluation α) (m : Machine) (Q : Store → α → Prop) : Prop :=
  ∃ a s, x m = .ended (.ok a, { m with store := s }) ∧ m.store.Extends s ∧ Q s a

variable {m : Machine} {call : Caller}

theorem Builds.pure {Q : Store → α → Prop} {a : α} (hQ : Q m.store a) :
    Builds (Pure.pure a) m Q :=
  ⟨a, m.store, rfl, .rfl, hQ⟩

theorem Builds.bind {x : Evaluation α} {f : α → Evaluation β} {Q : Store → α → Prop}
    {R : Store → β → Prop} (hx : Builds x m Q)
    (hf : ∀ a s, m.store.Extends s → Q s a → Builds (f a) { m with store := s } R) :
    Builds (x >>= f) m R := by
  obtain ⟨a, s, hrun, hext, ha⟩ := hx
  obtain ⟨b, s', hrun', hext', hb⟩ := hf a s hext ha
  refine ⟨b, s', ?_, hext.trans hext', hb⟩
  change (x m).bind _ = _
  rw [hrun]
  exact hrun'

theorem Builds.perform {op : Operation α} {Q : Store → α → Prop} {a : α} {s : Store}
    (loc : Location) (hop : op m.store = .ok (a, s)) (hext : m.store.Extends s) (hQ : Q s a) :
    Builds (perform op loc) m Q := by
  refine ⟨a, s, ?_, hext, hQ⟩
  rw [Evaluation.perform, hop]

theorem negative_neg {n : Int64} (hmin : n ≠ Int64.minValue) :
    Arithmetic.negative (-n) = .ok (.int n) := by
  have hlow := Int64.le_toInt n
  have hhigh := Int64.toInt_lt n
  have hne : n.toInt ≠ -2 ^ 63 := fun h => hmin (Int64.toInt_inj.1 h)
  have hneg : (-n).toInt = -n.toInt := by
    rw [Int64.toInt_neg]
    exact Int.bmod_eq_of_le (by omega) (by omega)
  rw [Arithmetic.negative, Arithmetic.exact, hneg, Int.neg_neg, Number.int64OfInt?,
    if_pos ⟨hlow, hhigh⟩, Int64.ofInt_toInt, Arithmetic.inRange]

/-- The expression of a scalar `k` evaluates to it. -/
theorem eval_scalar {k : Scalar} {e : Expr} (hk : k.Literal) (he : e.unplaced = k.expr) :
    Builds (e.eval call) m fun _ v => v = k.value := by
  cases k with
  | none =>
    cases e <;> cases he
    exact .pure rfl
  | bool b =>
    cases e <;> cases he
    exact .pure rfl
  | str s =>
    cases e <;> cases he
    exact .pure rfl
  | int n =>
    rw [Scalar.expr_int] at he
    split at he
    · cases e <;> simp only [Expr.unplaced, reduceCtorEq, Expr.unary.injEq] at he
      case unary op operand loc =>
        obtain ⟨rfl, hoperand, -⟩ := he
        cases operand <;> cases hoperand
        refine Builds.bind (Q := fun _ v => v = .int (-n)) (.pure rfl) fun v s _ hv => ?_
        subst hv
        refine .perform loc ?_ .rfl rfl
        rw [UnaryOp.apply, negative_neg hk]
        rfl
    · cases e <;> cases he
      exact .pure rfl

/-- The expressions of the trees `ds` evaluate to values that are the trees. -/
theorem evalAll_data {ds : List Datum} {es : List Expr} {depth : Nat}
    (hds : ∀ d ∈ ds, d.Literal depth)
    (heval : ∀ d ∈ ds, ∀ {e : Expr} {m}, e.unplaced = d.expr →
      Builds (e.eval call) m fun s v => s.Holds v d)
    (hes : es.map Expr.unplaced = ds.map Datum.expr) :
    Builds (evalAll call es) m fun s vs => List.Forall₂ s.Holds vs ds := by
  induction ds generalizing es m with
  | nil =>
    obtain rfl : es = [] := List.map_eq_nil_iff.1 hes
    exact .pure .nil
  | cons d ds ih =>
    obtain ⟨e, es, rfl, he, hes⟩ := List.map_eq_cons_iff.1 hes
    rw [List.forall_mem_cons] at hds
    refine Builds.bind (heval d List.mem_cons_self he) fun v s _ hv => ?_
    refine Builds.bind (ih hds.2 (fun d hd => heval d (List.mem_cons_of_mem _ hd)) hes) ?_
    exact fun vs s' hext hvs => .pure (.cons (hv.mono hds.1 hext) hvs)

theorem insertInto_of_new {key value : Value} {entries : List (Value × Value)}
    (h : ∀ entry ∈ entries, entry.1.sameKey key = false) :
    Dict.insertInto key value entries = entries ++ [(key, value)] := by
  induction entries with
  | nil => rfl
  | cons entry entries ih =>
    rw [List.forall_mem_cons] at h
    rw [Dict.insertInto, h.1, if_neg Bool.false_ne_true, ih h.2]
    rfl

/-- The expressions of `entries` with distinct keys are added to the dict `found` in order. -/
theorem evalEntries_data {entries : List (Scalar × Datum)} {es : List (Expr × Expr)} {depth : Nat}
    {loc : Location} {found : Dict} (hkeys : ∀ entry ∈ entries, entry.1.Literal)
    (hds : ∀ entry ∈ entries, entry.2.Literal depth)
    (heval : ∀ entry ∈ entries, ∀ {e : Expr} {m}, e.unplaced = entry.2.expr →
      Builds (e.eval call) m fun s v => s.Holds v entry.2)
    (hdistinct : entries.Pairwise fun a b => a.1.value.sameKey b.1.value = false)
    (hnew : ∀ old ∈ found.entries, ∀ entry ∈ entries, old.1.sameKey entry.1.value = false)
    (hes : es.map (fun e => (e.1.unplaced, e.2.unplaced)) =
      entries.map fun entry => (entry.1.expr, entry.2.expr)) :
    Builds (evalEntries call loc found es) m fun s d => ∃ added,
      d.entries = found.entries ++ added ∧ List.Forall₂ (fun new entry =>
        new.1 = entry.1.value ∧ s.Holds new.2 entry.2) added entries := by
  -- On `entries`, with those found so far: each key is new, so the entry comes last.
  induction entries generalizing es m found with
  | nil =>
    obtain rfl : es = [] := List.map_eq_nil_iff.1 hes
    exact .pure ⟨[], by simp, .nil⟩
  | cons entry entries ih =>
    obtain ⟨e, es, rfl, he, hmore⟩ := List.map_eq_cons_iff.1 hes
    obtain ⟨ekey, evalue⟩ := e
    obtain ⟨hk, hv⟩ := Prod.mk.inj he
    rw [List.forall_mem_cons] at hkeys hds heval
    rw [List.pairwise_cons] at hdistinct
    have hhashable : entry.1.value.isHashable = true := by cases entry.1 <;> rfl
    refine Builds.bind (eval_scalar hkeys.1 hk) fun k s _ hkey => ?_
    subst hkey
    have hcheck : Operation.checkKey entry.1.value s = .ok ((), s) := by
      rw [Operation.checkKey, if_pos hhashable]
      rfl
    refine Builds.bind (Q := fun _ _ => True) (.perform loc hcheck .rfl trivial) fun _ s _ _ => ?_
    refine Builds.bind (heval.1 hv) fun v s _ hvalue => ?_
    have hinsert : (found.insert entry.1.value v).entries = found.entries ++ [(entry.1.value, v)] :=
      insertInto_of_new fun old hold => hnew old hold entry List.mem_cons_self
    have hnew' : ∀ old ∈ (found.insert entry.1.value v).entries, ∀ next ∈ entries,
        old.1.sameKey next.1.value = false := by
      intro old hold next hnext
      rw [hinsert, List.mem_append, List.mem_singleton] at hold
      obtain hold | rfl := hold
      · exact hnew old hold next (List.mem_cons_of_mem _ hnext)
      · exact hdistinct.1 next hnext
    obtain ⟨d, s', hrun, hext, added, hentries, hadded⟩ :=
      ih hkeys.2 hds.2 heval.2 hdistinct.2 hnew' hmore
    refine ⟨d, s', hrun, hext, (entry.1.value, v) :: added, ?_,
      .cons ⟨rfl, hvalue.mono hds.1 hext⟩ hadded⟩
    rw [hentries, hinsert, List.append_assoc]
    rfl

/-- The expression of a tree `d` evaluates to a value that is the tree. -/
theorem eval_datum {d : Datum} {e : Expr} {depth : Nat} (hd : d.Literal depth)
    (he : e.unplaced = d.expr) : Builds (e.eval call) m fun s v => s.Holds v d := by
  induction hd generalizing e m with
  | scalar hk =>
    obtain ⟨v, s, hrun, hext, rfl⟩ := eval_scalar hk he
    exact ⟨_, s, hrun, hext, .scalar _⟩
  | @list depth ds hds ih =>
    cases e <;> simp only [Expr.unplaced, Datum.expr, reduceCtorEq, Expr.list.injEq] at he
    case list es loc =>
      rw [Expr.unplacedItems_eq_map, itemExprs_eq_map] at he
      refine Builds.bind (evalAll_data hds (fun d hd _ _ => ih d hd) he.1) fun vs s _ hvs => ?_
      rw [Watch.before_silent]
      refine .perform loc rfl (Store.extends_addList s vs.toArray) ?_
      have hnew : (s.addList vs.toArray).2.lists[s.lists.size]? = some vs.toArray := by
        simp [Store.addList]
      refine .list hnew ?_
      exact forall₂_of_mem hvs fun v d hd hv => hv.mono (hds d hd) (s.extends_addList _)
  | @dict depth entries hkeys hvalues hdistinct ih =>
    cases e <;> simp only [Expr.unplaced, Datum.expr, reduceCtorEq, Expr.dict.injEq] at he
    case dict es loc =>
      rw [Expr.unplacedEntries_eq_map, entryExprs_eq_map] at he
      refine Builds.bind (evalEntries_data hkeys hvalues (fun entry he _ _ => ih entry he)
        hdistinct (fun _ hold => absurd hold List.not_mem_nil) he.1) fun d s _ hd => ?_
      obtain ⟨added, hentries, hadded⟩ := hd
      obtain rfl : d.entries = added := hentries
      rw [Watch.before_silent]
      refine .perform loc rfl (s.extends_addDict d) (.of_entries Array.getElem?_push_size ?_)
      refine forall₂_of_mem hadded fun new entry hmem hnew => ⟨hnew.1, ?_⟩
      exact hnew.2.mono (hvalues entry hmem) (s.extends_addDict d)

end Evaluation

/-! ## The run -/

open Evaluation

theorem Frame.get?_set (f : Frame) (x : String) (v : Value) : (f.set x v).get? x = some v := by
  have hlookup (bindings : List (String × Value)) :
      (Frame.bindIn x v bindings).lookup x = some v := by
    induction bindings with
    | nil => simp [Frame.bindIn]
    | cons b bindings ih =>
      rw [Frame.bindIn]
      split
      · rename_i hb
        simp [hb]
      · rename_i hb
        have hne : (x == b.1) = false := beq_false_of_ne (Ne.symm hb)
        rw [List.lookup_cons, hne]
        exact ih
  exact hlookup f.bindings

/-- An assignment to the name `x` pauses once, with the name bound. -/
theorem exec_assign {call : Caller} {limit : Nat} {x : String} {e : Expr} {loc : Location}
    {m m' : Machine} {v : Value} (he : e.eval call (m.enterLine loc.line) = .ended (.ok v, m')) :
    (Stmt.assign (.name x) e loc).exec call limit m =
      (boundary loc (m'.bind x v)).bind fun (r, m) => .ended (r.map fun _ => .normal, m) := by
  have hact : (do let v ← e.eval call; Target.assign call loc v (.name x) : Evaluation Unit)
      (m.enterLine loc.line) = .ended (.ok (), m'.bind x v) := by
    change (e.eval call (m.enterLine loc.line)).bind _ = _
    rw [he]
    rfl
  change (((do let v ← e.eval call; Target.assign call loc v (.name x) : Evaluation Unit)
    (m.enterLine loc.line)).bind _) = _
  rw [hact]
  change (boundary loc (m'.bind x v)).bind _ = _
  congr 1
  funext ⟨r, m⟩
  cases r <;> rfl

/-- A program that assigns the expression of the tree `d` to the name `x` ends with the name bound
to a value that is the tree, if its `hook` never aborts. -/
theorem Program.ends_assign {p : Program} {x : String} {e : Expr} {loc : Location} {d : Datum}
    {depth : Nat} (hd : d.Literal depth) (he : e.unplaced = d.expr)
    (hp : p.body = [.assign (.name x) e loc]) (hook : Pause → StateM σ Reply) (t : σ)
    (hhook : ∀ pause t, (hook pause t).1.answer ≠ .abort) :
    ∃ m v, p.Ends hook t .completed m ∧ m.stack.globals.get? x = some v ∧ m.store.Holds v d := by
  have hbuilds : Evaluation.Builds (e.eval (callWithin 0 callLimit))
      (Machine.start.enterLine loc.line) fun s v => s.Holds v d := Evaluation.eval_datum hd he
  obtain ⟨v, s, hrun, -, hv⟩ := hbuilds
  generalize hm' : { Machine.start.enterLine loc.line with store := s } = m' at hrun
  have hexec : (Stmt.assign (.name x) e loc).exec (callWithin 0 callLimit) 0 Machine.start = _ :=
    exec_assign hrun
  generalize hpause : (⟨loc.line, m'.bind x v⟩ : Pause) = pause
  have hanswer := hhook pause t
  let last := { m'.bind x v with
    output := (hook pause t).1.keep.elim (m'.bind x v).output (m'.bind x v).output.trim }
  have hdrive : (p.run 0).drive hook t = ((.completed, last), (hook pause t).2) := by
    rw [Program.run, hp, execBlock, execBlockIn]
    change (((Stmt.exec _ _ _ _).bind _).bind _).drive hook t = _
    rw [hexec, boundary, hpause]
    simp only [Execution.bind, Execution.drive_paused]
    cases hreply : (hook pause t).1.answer with
    | abort => exact absurd hreply hanswer
    | step | goOn => rfl
  have hbind : m'.bind x v = { m' with stack := m'.stack.modifyGlobals (·.set x v) } := by
    subst hm'
    rfl
  refine ⟨last, v, ⟨by simp, 0, _, hdrive⟩, ?_, ?_⟩
  · change (m'.bind x v).stack.globals.get? x = some v
    rw [hbind]
    exact Frame.get?_set _ x v
  · change (m'.bind x v).store.Holds v d
    rw [hbind, ← hm']
    exact hv

/-- The text of a value `v` that can be written, with containers at most `90` deep, is a faithful
literal: the program that assigns it to `it` ends with the name bound to the same tree. -/
theorem Store.repr_faithful {s : Store} {v : Value} {d : Datum} (hv : s.Holds v d)
    (hd : d.Literal 90) :
    ∃ text p, s.repr v = .ok text ∧ Program.ofSource ("it = " ++ text) = .ok p ∧
      ∀ {σ : Type} (hook : Pause → StateM σ Reply) (t : σ),
        (∀ pause t, (hook pause t).1.answer ≠ .abort) →
          ∃ m w, p.Ends hook t .completed m ∧ m.stack.globals.get? "it" = some w ∧
            m.store.Holds w d := by
  obtain ⟨p, e, loc, hsource, hbody, he⟩ := Program.ofSource_assign hd (by decide)
  refine ⟨d.text, p, hv.repr hd (by decide), hsource, fun hook t hhook => ?_⟩
  exact Program.ends_assign hd he hbody hook t hhook

/-- The text of a dict with a list in it, `{'a': [True, -3, "it's"]}`, is a faithful literal. -/
theorem Store.repr_faithful_dict :
    ∃ text p,
      (Store.mk #[#[.bool true, .int (-3), .str "it's"]] #[⟨[(.str "a", .list 0)]⟩]).repr
        (.dict 0) = .ok text ∧
      Program.ofSource ("it = " ++ text) = .ok p ∧
      ∀ {σ : Type} (hook : Pause → StateM σ Reply) (t : σ),
        (∀ pause t, (hook pause t).1.answer ≠ .abort) →
          ∃ m w, p.Ends hook t .completed m ∧ m.stack.globals.get? "it" = some w ∧
            m.store.Holds w (.dict [(.str "a",
              .list [.scalar (.bool true), .scalar (.int (-3)), .scalar (.str "it's")])]) := by
  refine Store.repr_faithful ?_ ?_
  · refine .dict rfl rfl (.cons (.list rfl ?_) .nil)
    exact .cons (.scalar (.bool true)) (.cons (.scalar (.int (-3)))
      (.cons (.scalar (.str "it's")) .nil))
  · have hscalars : ∀ d ∈ [Datum.scalar (.bool true), .scalar (.int (-3)), .scalar (.str "it's")],
        d.Literal 88 := by
      simp only [List.forall_mem_cons, List.not_mem_nil, false_imp_iff, implies_true, and_true]
      refine ⟨.scalar trivial, .scalar ?_, .scalar (forall_mem_of_all (by decide))⟩
      unfold Scalar.Literal
      decide
    refine .dict ?_ ?_ (List.pairwise_singleton _ _)
    · rintro _ hmem
      obtain rfl := List.mem_singleton.1 hmem
      exact forall_mem_of_all (by decide)
    · rintro _ hmem
      obtain rfl := List.mem_singleton.1 hmem
      exact .list hscalars

end Stepper
