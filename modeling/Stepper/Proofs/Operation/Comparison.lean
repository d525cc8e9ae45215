import Stepper.Operator
import Stepper.Proofs.Number.Order
import Stepper.Proofs.Value.Order

/-!
# Comparisons by order

* `Operation.compare_bind`: a comparison has the outcome that the store tells, or fails.
* `CompareOp.apply_run`: each of `<`, `<=`, `>` and `>=` asks for the order of its operands, and
  then answers by it.
* `Store.Facing`: values that are compared on the way: the operands, and the first items that are
  not equal of lists that are.
* `Store.facing_of_unordered`: without an order there are values on the way that have none.
* `CompareOp.numbers_compared`: numbers other than a NaN are always compared, and a comparison is
  refused only where values have no order.
-/

namespace Stepper

/-- Whether the comparison asks for an order: `<`, `<=`, `>` and `>=` do. -/
def CompareOp.asksOrder : CompareOp → Bool
  | lt | le | gt | ge => true
  | _ => false

/-- Whether such a comparison is true of operands in this order. -/
def CompareOp.admits : CompareOp → Ordering → Bool
  | lt, order => order == .lt
  | le, order => order != .gt
  | gt, order => order == .gt
  | ge, order => order != .lt
  | _, _ => false

/-- Whether values of this kind are numbers. -/
def Kind.isNumber : Kind → Bool
  | bool | int | float => true
  | _ => false

/-- Whether there is an order between values of the kinds `j` and `k`: of numbers, of texts and of
lists. -/
def Kind.ordered (j k : Kind) : Bool :=
  j.isNumber && k.isNumber || j = .str && k = .str || j = .list && k = .list

/-- Whether `v` is a NaN. -/
def Value.isNaN (v : Value) : Bool :=
  v.number?.any Number.isNaN

variable {s s' : Store} {a b x y : Value} {m n : Number} {op : CompareOp} {levels : Nat}

/-! ## Operations -/

/-- What follows a comparison, `f`, has the order that the store `s` tells. Without one the
operation fails. -/
theorem Operation.compare_bind (op : CompareOp) (a b : Value) (f : Ordering → Operation α)
    (s : Store) : (Operation.compare op a b >>= f) s =
      match s.compare a b with
      | .ok (some order) => f order s
      | .ok none => .error ⟨.notOrdered op a.kind b.kind, s⟩
      | .error _ => .error ⟨.comparedTooDeep, s⟩ := by
  change Except.bind (Except.bind (Operation.lookDeep .comparedTooDeep (·.compare a b) s) _) _ = _
  rw [Operation.lookDeep]
  cases s.compare a b with
  | error => rfl
  | ok found => cases found <;> rfl

theorem Operation.ok_of_compare_bind {f : Ordering → Operation α} {r : α × Store}
    (h : (Operation.compare op a b >>= f) s = .ok r) :
    ∃ order, s.compare a b = .ok (some order) ∧ f order s = .ok r := by
  rw [compare_bind] at h
  cases hcompare : s.compare a b with
  | error => rw [hcompare] at h; cases h
  | ok found =>
    rw [hcompare] at h
    cases found with
    | none => cases h
    | some order => exact ⟨order, rfl, h⟩

theorem CompareOp.apply_run (hop : op.asksOrder) (a b : Value) (s : Store) :
    op.apply a b s =
      match s.compare a b with
      | .ok (some order) => .ok (op.admits order, s)
      | .ok none => .error ⟨.notOrdered op a.kind b.kind, s⟩
      | .error _ => .error ⟨.comparedTooDeep, s⟩ := by
  have happly : op.apply a b =
      Operation.compare op a b >>= fun order => pure (op.admits order) := by
    cases op <;> first | rfl | cases hop
  rw [happly, Operation.compare_bind]
  rfl

/-! ## Numbers -/

theorem Value.exists_number (hkind : a.kind.isNumber) (hnan : a.isNaN = false) :
    ∃ m, a.number? = some m ∧ m.isNaN = false := by
  cases a with
  | bool | int | float => exact ⟨_, rfl, hnan⟩
  | _ => cases hkind

/-- Two numbers have their order as numbers, `m.order? n`. -/
theorem Store.compareWithin_number (ha : a.number? = some m) (hb : b.number? = some n) :
    s.compareWithin (levels + 1) a b = .ok (m.order? n) := by
  simp only [compareWithin, ha, hb]
  rfl

/-! ## Values without order -/

namespace Store

/-- To compare `a` and `b`, `x` and `y` are compared: they are these values, or face each other in
the first items of two lists that are not equal. -/
inductive Facing (s : Store) : Value → Value → Value → Value → Prop
  | self (a b : Value) : Facing s a b a b
  | items {levels p q : Nat} {a b x y : Value} :
      firstUnlike (s.equalsWithin levels) (s.list p).toList (s.list q).toList = .ok (some (a, b)) →
      Facing s a b x y → Facing s (.list p) (.list q) x y

/-- Values `a` and `b` have no order if they are numbers without one, lists whose first items that
are not equal have none, or of kinds between which there is none. -/
theorem unordered_cases (h : s.compareWithin (levels + 1) a b = .ok none) :
    (∃ m n, a.number? = some m ∧ b.number? = some n ∧ m.order? n = none) ∨
      (∃ p q x y, a = .list p ∧ b = .list q ∧
        firstUnlike (s.equalsWithin levels) (s.list p).toList (s.list q).toList =
          .ok (some (x, y)) ∧
        s.compareWithin levels x y = .ok none) ∨
      a.kind.ordered b.kind = false := by
  -- By the kinds of both: numbers with numbers, texts with texts (always ordered), lists with
  -- lists.
  cases a with
  | bool | int | float =>
    cases b with
    | bool | int | float => exact .inl ⟨_, _, rfl, rfl, Except.ok.inj h⟩
    | _ => exact .inr (.inr rfl)
  | str =>
    cases b with
    | str => cases h
    | _ => exact .inr (.inr rfl)
  | list p =>
    cases b with
    | list q =>
      rw [compareWithin_list, compareItems_eq] at h
      cases hfirst : firstUnlike (s.equalsWithin levels) (s.list p).toList (s.list q).toList with
      | error => rw [hfirst] at h; cases h
      | ok first =>
        rw [hfirst] at h
        cases first with
        | none => cases h
        | some items => exact .inr (.inl ⟨p, q, items.1, items.2, rfl, rfl, hfirst, h⟩)
    | _ => exact .inr (.inr rfl)
  | _ => exact .inr (.inr rfl)

/-- Values `x` and `y` without order face each other somewhere in operands without order. -/
theorem facing_of_unordered (h : s.compareWithin levels a b = .ok none) :
    ∃ x y, s.Facing a b x y ∧ (x.kind.ordered y.kind = false ∨ x.isNaN ∨ y.isNaN) := by
  induction levels generalizing a b with
  | zero => cases h
  | succ levels ih =>
    obtain ⟨m, n, ha, hb, horder⟩ | ⟨p, q, x, y, rfl, rfl, hfirst, hxy⟩ | hkinds :=
      unordered_cases h
    · refine ⟨a, b, .self a b, .inr ?_⟩
      have hsome := Number.isSome_order? m n
      rw [horder] at hsome
      rw [Value.isNaN, Value.isNaN, ha, hb]
      simpa [imp_iff_not_or] using hsome.symm
    · obtain ⟨v, w, hfacing, hvw⟩ := ih hxy
      exact ⟨v, w, .items hfirst hfacing, hvw⟩
    · exact ⟨a, b, .self a b, .inl hkinds⟩

end Store

/-- Each of `<`, `<=`, `>` and `>=` has an answer for any two numbers other than a NaN. It is
refused (`notOrdered`) only where two values are `Facing` each other that have no order, because of
their kinds or because one of them is a NaN. -/
theorem CompareOp.numbers_compared (s : Store) (hop : op.asksOrder) :
    (∀ a b, a.kind.isNumber → b.kind.isNumber → a.isNaN = false → b.isNaN = false →
      ∃ answer, op.apply a b s = .ok (answer, s)) ∧
    ∀ a b other j k s', op.apply a b s = .error ⟨.notOrdered other j k, s'⟩ →
      ∃ x y, s.Facing a b x y ∧ (x.kind.ordered y.kind = false ∨ x.isNaN ∨ y.isNaN) := by
  refine ⟨fun a b ha hb hnanA hnanB => ?_, fun a b other j k s' hrefused => ?_⟩
  · obtain ⟨m, hm, hnanM⟩ := Value.exists_number ha hnanA
    obtain ⟨n, hn, hnanN⟩ := Value.exists_number hb hnanB
    have hsome : (m.order? n).isSome := by rw [Number.isSome_order?, hnanM, hnanN]; rfl
    obtain ⟨order, horder⟩ := Option.isSome_iff_exists.1 hsome
    have hcompare : s.compare a b = .ok (some order) := by
      rw [Store.compare, Store.compareWithin_number hm hn, horder]
    rw [apply_run hop, hcompare]
    exact ⟨op.admits order, rfl⟩
  · rw [apply_run hop] at hrefused
    cases hcompare : s.compare a b with
    | error => rw [hcompare] at hrefused; cases hrefused
    | ok found =>
      cases found with
      | some order => rw [hcompare] at hrefused; cases hrefused
      | none => exact Store.facing_of_unordered hcompare

/-- `True < 2.5` has an answer, and `[1] < ['a']` is refused, as there is no order between `1` and
`'a'`. -/
theorem CompareOp.numbers_compared_mixed :
    let s : Store := ⟨#[#[.int 1], #[.str "a"]], #[]⟩
    (∃ answer, CompareOp.lt.apply (.bool true) (.float (Number.nearest false 5 2)) s =
      .ok (answer, s)) ∧
    ∃ x y, s.Facing (.list 0) (.list 1) x y ∧
      (x.kind.ordered y.kind = false ∨ x.isNaN ∨ y.isNaN) := by
  intro s
  obtain ⟨hanswer, hrefused⟩ :=
    CompareOp.numbers_compared s (rfl : CompareOp.lt.asksOrder = true)
  exact ⟨hanswer _ _ rfl rfl rfl (Number.isNaN_nearest false 5 2), hrefused _ _ _ _ _ s rfl⟩

/-- A NaN is a float, and `0.5 < 1.0` is true. Yet it is not told whether a NaN is less than `1.0`:
the comparison is refused as one of values without order. -/
theorem CompareOp.nan_refused :
    CompareOp.lt.apply (.float 0.5) (.float 1.0) .empty = .ok (true, .empty) ∧
      CompareOp.lt.apply (.float Number.notANumber) (.float 1.0) .empty =
        .error ⟨.notOrdered .lt .float .float, .empty⟩ :=
  ⟨rfl, rfl⟩

end Stepper
