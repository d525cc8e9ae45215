import Stepper.Proofs.Expr.Tokens
import Stepper.Proofs.Value.Depth

/-!
# Values as trees

What a value is, apart from the places of its containers, is a tree.

* `Scalar`, `Datum`: scalars that a program can write, and the trees of lists and dicts over them.
* `Store.Holds`: a value is such a tree in a store.
* `Datum.Literal`: the trees whose text is an expression for them.
* `Datum.text`, `Store.Holds.repr`: the text of a tree, which is that of every value that is it.
* `Datum.expr`: the expression of a tree.
-/

namespace Stepper

/-- The scalars: `None`, a truth value, a whole number or a text. -/
inductive Scalar where
  | none
  | bool (b : Bool)
  | int (n : Int64)
  | str (s : String)

/-- The value of the scalar. -/
def Scalar.value : Scalar → Value
  | none => .none
  | bool b => .bool b
  | int n => .int n
  | str s => .str s

/-- A tree of lists and dicts over scalars; the keys of the dicts are scalars. -/
inductive Datum where
  | scalar (k : Scalar)
  | list (items : List Datum)
  | dict (entries : List (Scalar × Datum))

/-- The value in `s` is the tree: constructor by constructor, with items and entries in order. -/
inductive Store.Holds (s : Store) : Value → Datum → Prop
  | scalar (k : Scalar) : Holds s k.value (.scalar k)
  | list {place : Nat} {items : Array Value} {ds : List Datum} : s.lists[place]? = some items →
      List.Forall₂ (Holds s) items.toList ds → Holds s (.list place) (.list ds)
  | dict {place : Nat} {d : Dict} {entries : List (Scalar × Datum)} : s.dicts[place]? = some d →
      d.keys = entries.map (·.1.value) → List.Forall₂ (Holds s) d.values (entries.map (·.2)) →
        Holds s (.dict place) (.dict entries)

/-! ## Literals -/

/-- Every number but `Int64.minValue` can be written, and every text whose control characters have
an escape of their own. -/
def Scalar.Literal : Scalar → Prop
  | int n => n ≠ Int64.minValue
  | str s => ∀ c ∈ s.toList, c.toNat < 0x20 ∨ c.toNat = 0x7F → c = '\t' ∨ c = '\n' ∨ c = '\r'
  | _ => True

/-- A tree that can be written, with containers at most `depth` deep. No key of a dict matches a
later one (`sameKey`). -/
inductive Datum.Literal : Nat → Datum → Prop
  | scalar {depth : Nat} {k : Scalar} : k.Literal → Literal depth (.scalar k)
  | list {depth : Nat} {items : List Datum} :
      (∀ d ∈ items, Literal depth d) → Literal (depth + 1) (.list items)
  | dict {depth : Nat} {entries : List (Scalar × Datum)} :
      (∀ entry ∈ entries, entry.1.Literal) → (∀ entry ∈ entries, Literal depth entry.2) →
        entries.Pairwise (fun a b => a.1.value.sameKey b.1.value = false) →
          Literal (depth + 1) (.dict entries)

/-! ## Texts -/

mutual

/-- The text of a tree, as `repr` writes it. -/
def Datum.text : Datum → String
  | .scalar k => k.value.scalarText
  | .list items => "[" ++ ", ".intercalate (itemTexts items) ++ "]"
  | .dict entries => "\x7b" ++ ", ".intercalate (entryTexts entries) ++ "\x7d"

/-- The texts of items. -/
def itemTexts : List Datum → List String
  | [] => []
  | d :: rest => d.text :: itemTexts rest

/-- The texts of entries. -/
def entryTexts : List (Scalar × Datum) → List String
  | [] => []
  | (k, d) :: rest => (k.value.scalarText ++ ": " ++ d.text) :: entryTexts rest

end

theorem itemTexts_eq_map (items : List Datum) : itemTexts items = items.map Datum.text := by
  induction items <;> simp [itemTexts, *]

theorem entryTexts_eq_map (entries : List (Scalar × Datum)) :
    entryTexts entries = entries.map fun entry =>
      entry.1.value.scalarText ++ ": " ++ entry.2.text := by
  induction entries <;> simp [entryTexts, *]

/-- Lists related by `R` are related by `S` if `R` implies `S` for their items. -/
theorem forall₂_of_mem {R S : α → β → Prop} {as : List α} {bs : List β}
    (h : List.Forall₂ R as bs) (hRS : ∀ a, ∀ b ∈ bs, R a b → S a b) : List.Forall₂ S as bs := by
  induction h with
  | nil => exact .nil
  | cons hab _ ih =>
    exact .cons (hRS _ _ List.mem_cons_self hab)
      (ih fun a b hb => hRS a b (List.mem_cons_of_mem _ hb))

namespace Store

variable {s : Store} {v : Value} {depth levels : Nat}

/-- The entries of a dict `d` that is a tree, one by one. -/
theorem forall₂_entries {d : Dict} {entries : List (Scalar × Datum)}
    (hkeys : d.keys = entries.map (·.1.value))
    (hvalues : List.Forall₂ s.Holds d.values (entries.map (·.2))) :
    List.Forall₂ (fun found entry => found.1 = entry.1.value ∧ s.Holds found.2 entry.2) d.entries
      entries := by
  rw [Dict.keys, ← List.forall₂_eq_eq_eq, List.forall₂_map_left_iff,
    List.forall₂_map_right_iff] at hkeys
  rw [Dict.values, List.forall₂_map_left_iff, List.forall₂_map_right_iff] at hvalues
  generalize d.entries = found at hkeys hvalues ⊢
  induction hkeys with
  | nil => exact .nil
  | cons hkey _ ih =>
    cases hvalues with
    | cons hvalue hvalues => exact .cons ⟨hkey, hvalue⟩ (ih hvalues)

theorem Holds.of_entries {place : Nat} {d : Dict} {entries : List (Scalar × Datum)}
    (hplace : s.dicts[place]? = some d)
    (h : List.Forall₂ (fun found entry => found.1 = entry.1.value ∧ s.Holds found.2 entry.2)
      d.entries entries) : s.Holds (.dict place) (.dict entries) := by
  refine .dict hplace ?_ ?_
  · rw [Dict.keys, ← List.forall₂_eq_eq_eq, List.forall₂_map_left_iff, List.forall₂_map_right_iff]
    exact h.imp fun _ _ h => h.1
  · rw [Dict.values, List.forall₂_map_left_iff, List.forall₂_map_right_iff]
    exact h.imp fun _ _ h => h.2

theorem reprWithin_scalar (k : Scalar) (levels : Nat) :
    s.reprWithin (levels + 1) k.value = .ok k.value.scalarText := by
  cases k <;> rfl

theorem Holds.reprWithin {d : Datum} (hd : d.Literal depth) (h : s.Holds v d)
    (hlevels : depth ≤ levels) : s.reprWithin (levels + 1) v = .ok d.text := by
  -- On the depth of the tree: a container takes one level, and its items have one less.
  induction hd generalizing v levels with
  | @scalar depth k hk =>
    cases h with
    | scalar => exact reprWithin_scalar k levels
  | @list depth ds _ ih =>
    cases h with
    | @list place items _ hplace hitems =>
      obtain ⟨levels, rfl⟩ := Nat.exists_eq_add_one_of_ne_zero (Nat.ne_zero_of_lt hlevels)
      have hinner : depth ≤ levels := Nat.le_of_succ_le_succ hlevels
      have hlist : s.list place = items := by
        rw [Store.list, Array.getD_eq_getD_getElem?, hplace]
        rfl
      have htexts : items.toList.mapM (s.reprWithin (levels + 1)) = .ok (ds.map Datum.text) :=
        mapM_eq_ok_iff.2 <| List.forall₂_map_right_iff.2 <|
          forall₂_of_mem hitems fun a d hmem ha => ih d hmem ha hinner
      rw [Store.reprWithin, hlist, htexts, Datum.text, itemTexts_eq_map]
      rfl
  | @dict depth entries hkeys _ _ ih =>
    cases h with
    | @dict place d _ hplace hk hvalues =>
      obtain ⟨levels, rfl⟩ := Nat.exists_eq_add_one_of_ne_zero (Nat.ne_zero_of_lt hlevels)
      have hinner : depth ≤ levels := Nat.le_of_succ_le_succ hlevels
      have hdict : s.dict place = d := by
        rw [Store.dict, Array.getD_eq_getD_getElem?, hplace]
        rfl
      have hentry : ∀ found : Value × Value, ∀ entry ∈ entries,
          found.1 = entry.1.value ∧ s.Holds found.2 entry.2 →
            (do return (← s.reprWithin (levels + 1) found.1) ++ ": " ++
              (← s.reprWithin (levels + 1) found.2)) =
            (.ok (entry.1.value.scalarText ++ ": " ++ entry.2.text) : Except TooDeep String) := by
        rintro ⟨key, value⟩ ⟨k, d⟩ hmem ⟨rfl, hvalue⟩
        rw [reprWithin_scalar, ih _ hmem hvalue hinner]
        rfl
      have htexts := mapM_eq_ok_iff.2 <| List.forall₂_map_right_iff.2 <|
        forall₂_of_mem (forall₂_entries hk hvalues) hentry
      rw [Store.reprWithin, hdict, htexts, Datum.text, entryTexts_eq_map]
      rfl

theorem Holds.repr {d : Datum} (hd : d.Literal depth) (h : s.Holds v d)
    (hdepth : depth ≤ nestingLimit) : s.repr v = .ok d.text :=
  h.reprWithin hd hdepth

end Store

/-! ## Expressions -/

/-- The expression of a scalar. A negative number is `-` and a number. -/
def Scalar.expr : Scalar → Expr
  | none => .none .start
  | bool b => .bool b .start
  | int n => if n < 0 then .unary .neg (.int (-n) .start) .start else .int n .start
  | str s => .str s .start

mutual

/-- The expression of a tree: displays of its items and entries. -/
def Datum.expr : Datum → Expr
  | .scalar k => k.expr
  | .list items => .list (itemExprs items) .start
  | .dict entries => .dict (entryExprs entries) .start

/-- The expressions of items. -/
def itemExprs : List Datum → List Expr
  | [] => []
  | d :: rest => d.expr :: itemExprs rest

/-- The expressions of entries. -/
def entryExprs : List (Scalar × Datum) → List (Expr × Expr)
  | [] => []
  | (k, d) :: rest => (k.expr, d.expr) :: entryExprs rest

end

theorem itemExprs_eq_map (items : List Datum) : itemExprs items = items.map Datum.expr := by
  induction items <;> simp [itemExprs, *]

theorem entryExprs_eq_map (entries : List (Scalar × Datum)) :
    entryExprs entries = entries.map fun entry => (entry.1.expr, entry.2.expr) := by
  induction entries <;> simp [entryExprs, *]

namespace Scalar

theorem expr_int (n : Int64) : (int n).expr =
    if n < 0 then .unary .neg (.int (-n) .start) .start else .int n .start := rfl

theorem unplaced_expr (k : Scalar) : k.expr.unplaced = k.expr := by
  cases k with
  | int n =>
    rw [expr_int]
    split <;> rfl
  | _ => rfl

theorem wellFormed_expr (k : Scalar) : k.expr.WellFormed ∧ k.expr.nesting ≤ 2 := by
  cases k with
  | int n =>
    rw [expr_int]
    split
    · refine ⟨.intro trivial fun part hpart => ?_, Expr.nesting_le.2 fun part hpart => ?_⟩ <;>
        obtain rfl := List.mem_singleton.1 hpart
      · exact .leaf trivial rfl
      · rw [Expr.nestingAt_of_le (Nat.le_add_right 7 3)]
        exact Expr.nesting_leaf rfl
    · exact ⟨.leaf trivial rfl, Nat.le_succ_of_le (Expr.nesting_leaf rfl)⟩
  | none | bool | str => exact ⟨.leaf trivial rfl, Nat.le_succ_of_le (Expr.nesting_leaf rfl)⟩

end Scalar

namespace Datum

variable {depth : Nat} {d : Datum}

theorem Literal.unplaced_expr (hd : d.Literal depth) : d.expr.unplaced = d.expr := by
  induction hd with
  | scalar => exact Scalar.unplaced_expr _
  | @list depth items _ ih =>
    have hitems : (items.map expr).map Expr.unplaced = items.map expr := by
      rw [List.map_map]
      exact List.map_congr_left ih
    rw [expr, Expr.unplaced, Expr.unplacedItems_eq_map, itemExprs_eq_map, hitems]
  | @dict depth entries _ _ _ ih =>
    have hentries : (entryExprs entries).map (fun entry => (entry.1.unplaced, entry.2.unplaced)) =
        entryExprs entries := by
      rw [entryExprs_eq_map, List.map_map]
      refine List.map_congr_left fun entry hentry => ?_
      exact Prod.ext entry.1.unplaced_expr (ih entry hentry)
    rw [expr, Expr.unplaced, Expr.unplacedEntries_eq_map, hentries]

/-- The expression of the tree `d` can be written, and it is nested at most `depth + 2` deep. -/
theorem Literal.wellFormed_expr (hd : d.Literal depth) :
    d.expr.WellFormed ∧ d.expr.nesting ≤ depth + 2 := by
  have hbracketed {e : Expr} {n : Nat} (h : e.WellFormed ∧ e.nesting ≤ n) :
      e.WellFormed ∧ e.nestingAt 1 ≤ n := by
    rwa [e.nestingAt_one]
  induction hd with
  | @scalar depth k =>
    exact k.wellFormed_expr.imp_right fun h => Nat.le_trans h (Nat.le_add_left 2 depth)
  | @list depth items _ ih =>
    have hpart : ∀ part ∈ (Datum.list items).expr.operands,
        part.2.WellFormed ∧ part.2.nestingAt part.1 ≤ depth + 2 := by
      intro part hpart
      rw [expr, itemExprs_eq_map] at hpart
      obtain ⟨e, he, rfl⟩ := List.mem_map.1 hpart
      obtain ⟨d, hd, rfl⟩ := List.mem_map.1 he
      exact hbracketed (ih d hd)
    exact ⟨.intro trivial fun part h => (hpart part h).1,
      Expr.nesting_le.2 fun part h => (hpart part h).2⟩
  | @dict depth entries _ _ _ ih =>
    have hpart : ∀ part ∈ (Datum.dict entries).expr.operands,
        part.2.WellFormed ∧ part.2.nestingAt part.1 ≤ depth + 2 := by
      intro part hpart
      rw [expr, entryExprs_eq_map] at hpart
      simp only [Expr.operands, List.map_map, List.mem_append, List.mem_map] at hpart
      obtain ⟨entry, hentry, rfl⟩ | ⟨entry, hentry, rfl⟩ := hpart
      · exact hbracketed (entry.1.wellFormed_expr.imp_right fun h =>
          Nat.le_trans h (Nat.le_add_left 2 depth))
      · exact hbracketed (ih entry hentry)
    exact ⟨.intro trivial fun part h => (hpart part h).1,
      Expr.nesting_le.2 fun part h => (hpart part h).2⟩

end Datum

end Stepper
