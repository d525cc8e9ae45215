import Mathlib.Logic.Relation
import Stepper.Proofs.Value.Equality

/-!
# The order of values

* `Key.order?`: the order of numbers and of texts, with its laws.
* `compareItems`: two lists by their first items that are not equal, else by their lengths.
* `Coherent`: an equality and an order of items that may fail, and fit together all the same. What
  holds of items holds of lists of them (`Coherent.items_swap`, `Coherent.items_trans` and so on).
* `Store.Sortable`: values in which only whole numbers, truth values, texts and lists are reached.
* `Store.coherent`: on these, equality and order fit together however deep they look.
* `Store.compare_strict`: the order is strict and agrees with equality.
-/

namespace Stepper

/-! ## Scalars -/

/-- The order of two keys: numbers and texts have one, as `compareOfLessAndEq` tells it. -/
def Key.order? : Key → Key → Option Ordering
  | .int m, .int n => some (compareOfLessAndEq m n)
  | .str t, .str u => some (compareOfLessAndEq t u)
  | _, _ => Option.none

namespace Key

variable {j k l : Key}

theorem order?_swap (k l : Key) : l.order? k = (k.order? l).map Ordering.swap := by
  cases k <;> cases l <;> try rfl
  · exact congrArg some (compareOfLessAndEq_eq_swap Int64.le_antisymm Int64.le_total Int64.not_le)
  · exact congrArg some
      (compareOfLessAndEq_eq_swap String.le_antisymm String.le_total String.not_le)

theorem ne_of_order? (h : k.order? l = some .lt) : k ≠ l := by
  rintro rfl
  have hswap := order?_swap k k
  rw [h] at hswap
  cases hswap

theorem eq_of_order? (h : k.order? l = some .eq) : k = l := by
  cases k <;> cases l <;> simp only [order?, reduceCtorEq, Option.some.injEq] at h
  · rw [(compareOfLessAndEq_eq_eq Int64.le_refl Int64.not_le).1 h]
  · rw [(compareOfLessAndEq_eq_eq String.le_refl String.not_le).1 h]

theorem order?_trans (hjk : j.order? k = some .lt) (hkl : k.order? l = some .lt) :
    j.order? l = some .lt := by
  cases j <;> cases k <;> simp only [order?, reduceCtorEq, Option.some.injEq] at hjk <;>
    cases l <;> simp only [order?, reduceCtorEq, Option.some.injEq] at hkl ⊢
  · exact compareOfLessAndEq_eq_lt.2
      (Int64.lt_trans (compareOfLessAndEq_eq_lt.1 hjk) (compareOfLessAndEq_eq_lt.1 hkl))
  · exact compareOfLessAndEq_eq_lt.2
      (String.lt_trans (compareOfLessAndEq_eq_lt.1 hjk) (compareOfLessAndEq_eq_lt.1 hkl))

end Key

/-! ## Lists -/

/-- The order of two lists: that of their first items that `eq` tells apart, or of their lengths. -/
def compareItems (eq : α → α → Except ε Bool) (order : α → α → Except ε (Option Ordering)) :
    List α → List α → Except ε (Option Ordering)
  | a :: as, b :: bs => do if ← eq a b then compareItems eq order as bs else order a b
  | as, bs => return some (compareOfLessAndEq as.length bs.length)

/-- An equality `eq` and an `order` fit together on the items with `P`. Both may fail. -/
structure Coherent (P : α → Prop) (eq : α → α → Except ε Bool)
    (order : α → α → Except ε (Option Ordering)) : Prop where
  eq_symm : ∀ {a b}, P a → P b → eq b a = eq a b
  eq_right : ∀ {a b c answer}, P a → P b → P c →
    eq b c = .ok true → eq a b = .ok answer → eq a c = .ok answer
  order_swap : ∀ {a b}, P a → P b → order b a = (order a b).map (Option.map Ordering.swap)
  order_right : ∀ {a b c answer}, P a → P b → P c →
    eq b c = .ok true → order a b = .ok answer → order a c = .ok answer
  unlike_of_lt : ∀ {a b}, P a → P b → order a b = .ok (some .lt) → eq a b = .ok false
  like_of_eq : ∀ {a b}, P a → P b → order a b = .ok (some .eq) → eq a b = .ok true
  order_trans : ∀ {a b c}, P a → P b → P c →
    order a b = .ok (some .lt) → order b c = .ok (some .lt) → order a c = .ok (some .lt)

section Items

variable {eq : α → α → Except ε Bool} {order : α → α → Except ε (Option Ordering)}
variable {P : α → Prop} {a b c : α} {as bs cs : List α} {answer : Bool} {result : Option Ordering}

/-- What the first items `a` and `b` say about an equality of lists that ends. -/
theorem everyPair_cons (h : everyPair eq (a :: as) (b :: bs) = .ok answer) :
    eq a b = .ok true ∧ everyPair eq as bs = .ok answer ∨ eq a b = .ok false ∧ answer = false := by
  rw [everyPair] at h
  cases heq : eq a b with
  | error => rw [heq] at h; cases h
  | ok like =>
    rw [heq] at h
    cases like with
    | true => exact .inl ⟨rfl, h⟩
    | false => exact .inr ⟨rfl, (Except.ok.inj h).symm⟩

theorem everyPair_of_true (h : eq a b = .ok true) :
    everyPair eq (a :: as) (b :: bs) = everyPair eq as bs := by
  rw [everyPair, h]
  rfl

theorem everyPair_of_false (h : eq a b = .ok false) :
    everyPair eq (a :: as) (b :: bs) = .ok false := by
  rw [everyPair, h]
  rfl

theorem everyPair_self (h : ∀ a ∈ as, eq a a = .ok true) : everyPair eq as as = .ok true := by
  induction as with
  | nil => rfl
  | cons a as ih =>
    rw [List.forall_mem_cons] at h
    rw [everyPair_of_true h.1, ih h.2]

/-- What the first items `a` and `b` say about an order of lists that ends. -/
theorem compareItems_cons (h : compareItems eq order (a :: as) (b :: bs) = .ok result) :
    eq a b = .ok true ∧ compareItems eq order as bs = .ok result ∨
      eq a b = .ok false ∧ order a b = .ok result := by
  rw [compareItems] at h
  cases heq : eq a b with
  | error => rw [heq] at h; cases h
  | ok like =>
    rw [heq] at h
    cases like with
    | true => exact .inl ⟨rfl, h⟩
    | false => exact .inr ⟨rfl, h⟩

theorem compareItems_of_true (h : eq a b = .ok true) :
    compareItems eq order (a :: as) (b :: bs) = compareItems eq order as bs := by
  rw [compareItems, h]
  rfl

theorem compareItems_of_false (h : eq a b = .ok false) :
    compareItems eq order (a :: as) (b :: bs) = order a b := by
  rw [compareItems, h]
  rfl

theorem compareItems_nil_cons : compareItems eq order [] (b :: bs) = .ok (some .lt) := by
  simp [compareItems, compareOfLessAndEq, pure, Except.pure]

theorem compareItems_cons_nil : compareItems eq order (a :: as) [] = .ok (some .gt) := by
  simp [compareItems, compareOfLessAndEq, pure, Except.pure]

theorem compareItems_eq (eq : α → α → Except ε Bool) (order : α → α → Except ε (Option Ordering))
    (as bs : List α) : compareItems eq order as bs = (do
      match ← firstUnlike eq as bs with
      | some (a, b) => order a b
      | none => return some (compareOfLessAndEq as.length bs.length)) := by
  induction as generalizing bs with
  | nil => rfl
  | cons a as ih =>
    cases bs with
    | nil => rfl
    | cons b bs =>
      rw [compareItems, firstUnlike]
      cases heq : eq a b with
      | error => rfl
      | ok like =>
        cases like with
        | false => rfl
        | true =>
          have hlength : compareOfLessAndEq (a :: as).length (b :: bs).length =
              compareOfLessAndEq as.length bs.length := by
            simp [compareOfLessAndEq]
          rw [hlength]
          exact ih bs

/-- Lists of one length whose items are equal have the order `.eq`. -/
theorem compareItems_of_everyPair (hlength : as.length = bs.length)
    (h : everyPair eq as bs = .ok true) : compareItems eq order as bs = .ok (some .eq) := by
  induction as generalizing bs with
  | nil =>
    obtain rfl := List.length_eq_zero_iff.1 hlength.symm
    rfl
  | cons a as ih =>
    cases bs with
    | nil => cases hlength
    | cons b bs =>
      obtain ⟨heq, hrest⟩ | ⟨-, hfalse⟩ := everyPair_cons h
      · rw [compareItems_of_true heq]
        exact ih (Nat.succ.inj hlength) hrest
      · cases hfalse

/-- Lists of one length are not equal if their order is `.lt`. -/
theorem everyPair_of_compareItems_lt (hlength : as.length = bs.length)
    (hlt : compareItems eq order as bs = .ok (some .lt)) : everyPair eq as bs = .ok false := by
  induction as generalizing bs with
  | nil =>
    obtain rfl := List.length_eq_zero_iff.1 hlength.symm
    cases hlt
  | cons a as ih =>
    cases bs with
    | nil => cases hlength
    | cons b bs =>
      obtain ⟨hab, hrest⟩ | ⟨hab, -⟩ := compareItems_cons hlt
      · rw [everyPair_of_true hab]
        exact ih (Nat.succ.inj hlength) hrest
      · exact everyPair_of_false hab

namespace Coherent

variable (h : Coherent P eq order)
include h

theorem eq_left (ha : P a) (hb : P b) (hc : P c) (hab : eq a b = .ok true)
    (hbc : eq b c = .ok answer) : eq a c = .ok answer := by
  rw [← h.eq_symm hb hc] at hbc
  rw [← h.eq_symm ha hb] at hab
  rw [← h.eq_symm ha hc]
  exact h.eq_right hc hb ha hab hbc

theorem order_left (ha : P a) (hb : P b) (hc : P c) (hab : eq a b = .ok true)
    (hbc : order b c = .ok result) : order a c = .ok result := by
  have hcb : order c b = .ok (result.map Ordering.swap) := by rw [h.order_swap hb hc, hbc]; rfl
  have hba : eq b a = .ok true := by rw [h.eq_symm ha hb, hab]
  rw [h.order_swap hc ha, h.order_right hc hb ha hba hcb]
  cases result <;> simp [Except.map]

theorem items_symm (has : ∀ a ∈ as, P a) (hbs : ∀ b ∈ bs, P b) :
    everyPair eq bs as = everyPair eq as bs := by
  induction as generalizing bs with
  | nil => cases bs <;> rfl
  | cons a as ih =>
    cases bs with
    | nil => rfl
    | cons b bs =>
      rw [List.forall_mem_cons] at has hbs
      rw [everyPair, everyPair, h.eq_symm has.1 hbs.1, ih has.2 hbs.2]

theorem items_right (has : ∀ a ∈ as, P a) (hbs : ∀ b ∈ bs, P b) (hcs : ∀ c ∈ cs, P c)
    (hlength : bs.length = cs.length) (hlike : everyPair eq bs cs = .ok true)
    (hanswer : everyPair eq as bs = .ok answer) : everyPair eq as cs = .ok answer := by
  induction bs generalizing as cs with
  | nil =>
    obtain rfl := List.length_eq_zero_iff.1 hlength.symm
    exact hanswer
  | cons b bs ih =>
    cases cs with
    | nil => cases hlength
    | cons c cs =>
      cases as with
      | nil => exact hanswer
      | cons a as =>
        rw [List.forall_mem_cons] at has hbs hcs
        obtain ⟨hbc, hrest⟩ | ⟨-, hfalse⟩ := everyPair_cons hlike
        · obtain ⟨hab, hanswer⟩ | ⟨hab, rfl⟩ := everyPair_cons hanswer
          · rw [everyPair_of_true (h.eq_right has.1 hbs.1 hcs.1 hbc hab)]
            exact ih has.2 hbs.2 hcs.2 (Nat.succ.inj hlength) hrest hanswer
          · exact everyPair_of_false (h.eq_right has.1 hbs.1 hcs.1 hbc hab)
        · cases hfalse

theorem items_order_right (has : ∀ a ∈ as, P a) (hbs : ∀ b ∈ bs, P b) (hcs : ∀ c ∈ cs, P c)
    (hlength : bs.length = cs.length) (hlike : everyPair eq bs cs = .ok true)
    (hresult : compareItems eq order as bs = .ok result) :
    compareItems eq order as cs = .ok result := by
  induction bs generalizing as cs with
  | nil =>
    obtain rfl := List.length_eq_zero_iff.1 hlength.symm
    exact hresult
  | cons b bs ih =>
    cases cs with
    | nil => cases hlength
    | cons c cs =>
      cases as with
      | nil =>
        rw [← hresult]
        simp only [compareItems, hlength]
      | cons a as =>
        rw [List.forall_mem_cons] at has hbs hcs
        obtain ⟨hbc, hrest⟩ | ⟨-, hfalse⟩ := everyPair_cons hlike
        · obtain ⟨hab, hresult⟩ | ⟨hab, hresult⟩ := compareItems_cons hresult
          · rw [compareItems_of_true (h.eq_right has.1 hbs.1 hcs.1 hbc hab)]
            exact ih has.2 hbs.2 hcs.2 (Nat.succ.inj hlength) hrest hresult
          · rw [compareItems_of_false (h.eq_right has.1 hbs.1 hcs.1 hbc hab)]
            exact h.order_right has.1 hbs.1 hcs.1 hbc hresult
        · cases hfalse

theorem items_swap (has : ∀ a ∈ as, P a) (hbs : ∀ b ∈ bs, P b) :
    compareItems eq order bs as = (compareItems eq order as bs).map (Option.map Ordering.swap) := by
  induction as generalizing bs with
  | nil =>
    cases bs with
    | nil => rfl
    | cons => rw [compareItems_nil_cons, compareItems_cons_nil]; rfl
  | cons a as ih =>
    cases bs with
    | nil => rw [compareItems_nil_cons, compareItems_cons_nil]; rfl
    | cons b bs =>
      rw [List.forall_mem_cons] at has hbs
      rw [compareItems, compareItems, h.eq_symm has.1 hbs.1, ih has.2 hbs.2,
        h.order_swap has.1 hbs.1]
      cases eq a b with
      | error => rfl
      | ok like => cases like <;> rfl

/-- Lists `as` and `bs` with the order `.eq` are equal item by item. -/
theorem items_like (has : ∀ a ∈ as, P a) (hbs : ∀ b ∈ bs, P b)
    (heq : compareItems eq order as bs = .ok (some .eq)) :
    as.length = bs.length ∧ everyPair eq as bs = .ok true := by
  induction as generalizing bs with
  | nil =>
    cases bs with
    | nil => exact ⟨rfl, rfl⟩
    | cons => rw [compareItems_nil_cons] at heq; cases heq
  | cons a as ih =>
    cases bs with
    | nil => rw [compareItems_cons_nil] at heq; cases heq
    | cons b bs =>
      rw [List.forall_mem_cons] at has hbs
      obtain ⟨hab, hrest⟩ | ⟨hunlike, horder⟩ := compareItems_cons heq
      · obtain ⟨hlength, hlike⟩ := ih has.2 hbs.2 hrest
        exact ⟨congrArg Nat.succ hlength, (everyPair_of_true hab).trans hlike⟩
      · rw [h.like_of_eq has.1 hbs.1 horder] at hunlike
        cases hunlike

theorem items_trans (has : ∀ a ∈ as, P a) (hbs : ∀ b ∈ bs, P b) (hcs : ∀ c ∈ cs, P c)
    (hab : compareItems eq order as bs = .ok (some .lt))
    (hbc : compareItems eq order bs cs = .ok (some .lt)) :
    compareItems eq order as cs = .ok (some .lt) := by
  induction bs generalizing as cs with
  | nil =>
    cases as with
    | nil => cases hab
    | cons => rw [compareItems_cons_nil] at hab; cases hab
  | cons b bs ih =>
    cases cs with
    | nil => rw [compareItems_cons_nil] at hbc; cases hbc
    | cons c cs =>
      cases as with
      | nil => exact compareItems_nil_cons
      | cons a as =>
        rw [List.forall_mem_cons] at has hbs hcs
        -- Four cases: at each of the two comparisons the first items are equal or decide it.
        obtain ⟨hlike, hab⟩ | ⟨hunlike, hab⟩ := compareItems_cons hab <;>
          obtain ⟨hlike', hbc⟩ | ⟨hunlike', hbc⟩ := compareItems_cons hbc
        · rw [compareItems_of_true (h.eq_right has.1 hbs.1 hcs.1 hlike' hlike)]
          exact ih has.2 hbs.2 hcs.2 hab hbc
        · rw [compareItems_of_false (h.eq_left has.1 hbs.1 hcs.1 hlike hunlike')]
          exact h.order_left has.1 hbs.1 hcs.1 hlike hbc
        · rw [compareItems_of_false (h.eq_right has.1 hbs.1 hcs.1 hlike' hunlike)]
          exact h.order_right has.1 hbs.1 hcs.1 hlike' hab
        · have hac := h.order_trans has.1 hbs.1 hcs.1 hab hbc
          rw [compareItems_of_false (h.unlike_of_lt has.1 hcs.1 hac)]
          exact hac

end Coherent

end Items

/-! ## Values -/

namespace Store

variable {s : Store} {a b c : Value} {j k l : Key} {p q levels : Nat} {answer : Bool}
variable {result : Option Ordering}

/-- The value `v` is a list of `s`, and `item` is one of its items. -/
def HasItem (s : Store) (v item : Value) : Prop :=
  ∃ place, v = .list place ∧ item ∈ s.list place

/-- Whole numbers, truth values, texts, and lists in which nothing else is reached (`HasItem`). A
list may contain itself. -/
def Sortable (s : Store) (v : Value) : Prop :=
  ∀ w, Relation.ReflTransGen s.HasItem v w → w.kind ∈ [.int, .bool, .str, .list]

/-- In a store `s` whose lists have items of these kinds only, a value `a` of these kinds is
sortable. -/
theorem sortable_of_lists
    (hitems : ∀ items ∈ s.lists, ∀ v ∈ items, v.kind ∈ [.int, .bool, .str, .list])
    (ha : a.kind ∈ [.int, .bool, .str, .list]) : s.Sortable a := by
  intro w hw
  cases hw with
  | refl => exact ha
  | tail _ hitem =>
    obtain ⟨place, -, hmem⟩ := hitem
    obtain ⟨items, hitem, hmem⟩ := exists_of_mem_list hmem
    exact hitems items hitem w hmem

theorem Sortable.items (h : s.Sortable (.list p)) : ∀ v ∈ (s.list p).toList, s.Sortable v :=
  fun _ hv w hw => h w (.head ⟨p, rfl, Array.mem_toList_iff.1 hv⟩ hw)

/-- A scalar that is comparable with itself, or a list. -/
inductive SortableForm : Value → Prop
  | scalar {v : Value} (k : Key) : v.key? = some k → k.order? k = some .eq → SortableForm v
  | list (place : Nat) : SortableForm (.list place)

theorem Sortable.form (h : s.Sortable a) : SortableForm a := by
  have hself (n : Int64) : (Key.int n).order? (.int n) = some .eq := by
    simp [Key.order?, compareOfLessAndEq]
  have hkind := h a .refl
  cases a with
  | int n => exact .scalar (.int n) rfl (hself n)
  | bool b => exact .scalar _ rfl (hself _)
  | str t => exact .scalar (.str t) rfl (by simp [Key.order?, compareOfLessAndEq])
  | list place => exact .list place
  | _ => simp [Value.kind] at hkind

theorem sameKey_list_right (a : Value) : a.sameKey (.list p) = false := by
  cases a <;> rfl

/-- A sortable value `a` matches a scalar `b` if it is the same key `k`. -/
theorem SortableForm.sameKey_eq (ha : SortableForm a) (hb : b.key? = some k) :
    a.sameKey b = decide (a.key? = some k) := by
  cases ha with
  | scalar j hj => rw [Value.sameKey_eq (hj ▸ rfl) (hb ▸ rfl), hb]
  | list => rw [sameKey_list, Value.key?, decide_eq_false (Option.some_ne_none k).symm]

theorem equalsWithin_list (levels p q : Nat) :
    s.equalsWithin (levels + 1) (.list p) (.list q) =
      if p = q then .ok true
      else if (s.list p).size ≠ (s.list q).size then .ok false
      else everyPair (s.equalsWithin levels) (s.list p).toList (s.list q).toList := rfl

theorem compareWithin_key (ha : a.key? = some k) (hb : b.key? = some l) :
    s.compareWithin (levels + 1) a b = .ok (k.order? l) := by
  cases a <;> simp only [Value.key?, reduceCtorEq, Option.some.injEq] at ha <;> subst ha <;>
    cases b <;> simp only [Value.key?, reduceCtorEq, Option.some.injEq] at hb <;> subst hb <;> rfl

/-- The list `p` is not comparable with a scalar `b`. -/
theorem compareWithin_list_key (hb : b.key? = some k) :
    s.compareWithin (levels + 1) (.list p) b = .ok none := by
  cases b <;> first | rfl | cases hb

theorem compareWithin_key_list (ha : a.key? = some k) :
    s.compareWithin (levels + 1) a (.list q) = .ok none := by
  cases a <;> first | rfl | cases ha

theorem compareWithin_list (levels p q : Nat) :
    s.compareWithin (levels + 1) (.list p) (.list q) =
      compareItems (s.equalsWithin levels) (s.compareWithin levels) (s.list p).toList
        (s.list q).toList := by
  rw [compareItems_eq]
  change (firstUnlike _ _ _).bind _ = (firstUnlike _ _ _).bind _
  congr 1
  funext first
  cases first <;> rfl

/-- Equal values `a` and `b` are the same key, the same list, or lists of equal items. -/
theorem like_cases (ha : SortableForm a) (hb : SortableForm b)
    (h : s.equalsWithin (levels + 1) a b = .ok true) :
    (∃ k, a.key? = some k ∧ b.key? = some k) ∨ ∃ p q, a = .list p ∧ b = .list q ∧
      (p = q ∨ (s.list p).toList.length = (s.list q).toList.length ∧
        everyPair (s.equalsWithin levels) (s.list p).toList (s.list q).toList = .ok true) := by
  cases hb with
  | scalar k hk =>
    rw [equalsWithin_scalar (.inr (hk ▸ rfl)), ha.sameKey_eq hk, Except.ok.injEq,
      decide_eq_true_iff] at h
    exact .inl ⟨k, h, hk⟩
  | list q =>
    cases ha with
    | scalar k hk =>
      rw [equalsWithin_scalar (.inl (hk ▸ rfl)), sameKey_list_right] at h
      cases h
    | list p =>
      refine .inr ⟨p, q, rfl, rfl, ?_⟩
      rw [equalsWithin_list] at h
      split at h
      · exact .inl ‹_›
      split at h
      · cases h
      · exact .inr ⟨not_not.1 ‹_›, h⟩

/-- Values `a` and `b` with an `order` are scalars with this order, or lists with it. -/
theorem order_cases {order : Ordering} (ha : SortableForm a) (hb : SortableForm b)
    (h : s.compareWithin (levels + 1) a b = .ok (some order)) :
    (∃ k l, a.key? = some k ∧ b.key? = some l ∧ k.order? l = some order) ∨
      ∃ p q, a = .list p ∧ b = .list q ∧
        compareItems (s.equalsWithin levels) (s.compareWithin levels) (s.list p).toList
          (s.list q).toList = .ok (some order) := by
  cases ha with
  | scalar k hk =>
    cases hb with
    | scalar l hl =>
      rw [compareWithin_key hk hl] at h
      exact .inl ⟨k, l, hk, hl, Except.ok.inj h⟩
    | list => rw [compareWithin_key_list hk] at h; cases h
  | list p =>
    cases hb with
    | scalar l hl => rw [compareWithin_list_key hl] at h; cases h
    | list q => exact .inr ⟨p, q, rfl, rfl, by rwa [← compareWithin_list]⟩

section Step

variable (h : Coherent s.Sortable (s.equalsWithin levels) (s.compareWithin levels))
include h

theorem equalsWithin_symm (ha : s.Sortable a) (hb : s.Sortable b) :
    s.equalsWithin (levels + 1) b a = s.equalsWithin (levels + 1) a b := by
  cases ha.form with
  | scalar k hk =>
    rw [equalsWithin_scalar (.inr (hk ▸ rfl)), equalsWithin_scalar (.inl (hk ▸ rfl)),
      hb.form.sameKey_eq hk]
    cases hb.form with
    | scalar l hl =>
      rw [Value.sameKey_eq (hk ▸ rfl) (hl ▸ rfl), hk]
      simp only [eq_comm]
    | list => rw [sameKey_list_right, Value.key?, decide_eq_false (Option.some_ne_none k).symm]
  | list p =>
    cases hb.form with
    | scalar l hl =>
      rw [equalsWithin_scalar (.inl (hl ▸ rfl)), equalsWithin_scalar (.inr (hl ▸ rfl)),
        sameKey_list_right, sameKey_list]
    | list q =>
      rw [equalsWithin_list, equalsWithin_list, h.items_symm ha.items hb.items]
      simp only [@eq_comm _ q p, @ne_comm _ (s.list q).size]

/-- In `a == b`, `b` can be replaced by an equal `c`. -/
theorem equalsWithin_right (ha : s.Sortable a) (hb : s.Sortable b) (hc : s.Sortable c)
    (hbc : s.equalsWithin (levels + 1) b c = .ok true)
    (hab : s.equalsWithin (levels + 1) a b = .ok answer) :
    s.equalsWithin (levels + 1) a c = .ok answer := by
  obtain ⟨k, hkb, hkc⟩ | ⟨q, r, rfl, rfl, hqr⟩ := like_cases hb.form hc.form hbc
  · rw [equalsWithin_scalar (.inr (hkb ▸ rfl)), ha.form.sameKey_eq hkb] at hab
    rw [equalsWithin_scalar (.inr (hkc ▸ rfl)), ha.form.sameKey_eq hkc, hab]
  cases ha.form with
  | scalar k hk =>
    rw [equalsWithin_scalar (.inl (hk ▸ rfl)), sameKey_list_right] at hab ⊢
    exact hab
  | list p =>
    obtain rfl | ⟨hlength, hlike⟩ := hqr
    · exact hab
    -- one list three times over is equal at once, whatever its items are
    by_cases hpq : p = q
    · subst hpq
      rw [equalsWithin_list, if_pos rfl] at hab
      rw [hbc, hab]
    by_cases hpr : p = r
    · subst hpr
      rw [equalsWithin_symm h hb ha, hbc] at hab
      rw [equalsWithin_list, if_pos rfl, hab]
    have hsize : (s.list q).size = (s.list r).size := hlength
    rw [equalsWithin_list, if_neg hpq] at hab
    rw [equalsWithin_list, if_neg hpr, ← hsize]
    split at hab
    · exact (if_pos ‹_›).trans hab
    · rw [if_neg ‹_›]
      exact h.items_right ha.items hb.items hc.items hlength hlike hab

theorem compareWithin_swap (ha : s.Sortable a) (hb : s.Sortable b) :
    s.compareWithin (levels + 1) b a =
      (s.compareWithin (levels + 1) a b).map (Option.map Ordering.swap) := by
  cases ha.form with
  | scalar k hk =>
    cases hb.form with
    | scalar l hl =>
      rw [compareWithin_key hk hl, compareWithin_key hl hk, Key.order?_swap]
      rfl
    | list => rw [compareWithin_key_list hk, compareWithin_list_key hk]; rfl
  | list p =>
    cases hb.form with
    | scalar l hl => rw [compareWithin_key_list hl, compareWithin_list_key hl]; rfl
    | list q => rw [compareWithin_list, compareWithin_list, h.items_swap ha.items hb.items]

/-- In a comparison of `a` and `b`, `b` can be replaced by an equal `c`. -/
theorem compareWithin_right (ha : s.Sortable a) (hb : s.Sortable b) (hc : s.Sortable c)
    (hbc : s.equalsWithin (levels + 1) b c = .ok true)
    (hab : s.compareWithin (levels + 1) a b = .ok result) :
    s.compareWithin (levels + 1) a c = .ok result := by
  obtain ⟨k, hkb, hkc⟩ | ⟨q, r, rfl, rfl, hqr⟩ := like_cases hb.form hc.form hbc
  · cases ha.form with
    | scalar j hj =>
      rw [compareWithin_key hj hkb] at hab
      rw [compareWithin_key hj hkc, hab]
    | list =>
      rw [compareWithin_list_key hkb] at hab
      rw [compareWithin_list_key hkc, hab]
  cases ha.form with
  | scalar j hj =>
    rw [compareWithin_key_list hj] at hab ⊢
    exact hab
  | list p =>
    obtain rfl | ⟨hlength, hlike⟩ := hqr
    · exact hab
    rw [compareWithin_list] at hab ⊢
    exact h.items_order_right ha.items hb.items hc.items hlength hlike hab

theorem compareWithin_unlike (ha : s.Sortable a) (hb : s.Sortable b)
    (hlt : s.compareWithin (levels + 1) a b = .ok (some .lt)) :
    s.equalsWithin (levels + 1) a b = .ok false := by
  obtain ⟨k, l, hk, hl, hkl⟩ | ⟨p, q, rfl, rfl, hpq⟩ := order_cases ha.form hb.form hlt
  · have hne : ¬ a.key? = some l := by simpa [hk] using Key.ne_of_order? hkl
    rw [equalsWithin_scalar (.inr (hl ▸ rfl)), ha.form.sameKey_eq hl, decide_eq_false hne]
  · rw [equalsWithin_list]
    split
    · rename_i hsame
      have hswap := h.items_swap ha.items ha.items
      rw [← hsame] at hpq
      rw [hpq] at hswap
      cases hswap
    split
    · rfl
    · rename_i hsize
      exact everyPair_of_compareItems_lt (not_not.1 hsize) hpq

theorem compareWithin_like (ha : s.Sortable a) (hb : s.Sortable b)
    (heq : s.compareWithin (levels + 1) a b = .ok (some .eq)) :
    s.equalsWithin (levels + 1) a b = .ok true := by
  obtain ⟨k, l, hk, hl, hkl⟩ | ⟨p, q, rfl, rfl, hpq⟩ := order_cases ha.form hb.form heq
  · have hsame : a.key? = some l := hk.trans (congrArg some (Key.eq_of_order? hkl))
    rw [equalsWithin_scalar (.inr (hl ▸ rfl)), ha.form.sameKey_eq hl, decide_eq_true hsame]
  · obtain ⟨hlength, hlike⟩ := h.items_like ha.items hb.items hpq
    have hsize : (s.list p).size = (s.list q).size := hlength
    rw [equalsWithin_list, if_neg (not_not.2 hsize), hlike, ite_self]

theorem compareWithin_trans (ha : s.Sortable a) (hb : s.Sortable b) (hc : s.Sortable c)
    (hab : s.compareWithin (levels + 1) a b = .ok (some .lt))
    (hbc : s.compareWithin (levels + 1) b c = .ok (some .lt)) :
    s.compareWithin (levels + 1) a c = .ok (some .lt) := by
  obtain ⟨j, k, hj, hk, hjk⟩ | ⟨p, q, rfl, rfl, hpq⟩ := order_cases ha.form hb.form hab <;>
    obtain ⟨k', l, hk', hl, hkl⟩ | ⟨q', r, hq', rfl, hqr⟩ := order_cases hb.form hc.form hbc
  · obtain rfl : k = k' := Option.some.inj (hk.symm.trans hk')
    rw [compareWithin_key hj hl, Key.order?_trans hjk hkl]
  · subst hq'
    cases hk
  · cases hk'
  · obtain rfl : q = q' := Value.list.inj hq'
    rw [compareWithin_list]
    exact h.items_trans ha.items hb.items hc.items hpq hqr

end Step

/-- On sortable values equality and order fit together, by induction on `levels`: one level more is
a step from items to lists. -/
theorem coherent (s : Store) (levels : Nat) :
    Coherent s.Sortable (s.equalsWithin levels) (s.compareWithin levels) := by
  induction levels with
  | zero => exact ⟨fun _ _ => rfl, nofun, fun _ _ => rfl, nofun, nofun, nofun, nofun⟩
  | succ levels ih =>
    exact ⟨equalsWithin_symm ih, equalsWithin_right ih, compareWithin_swap ih,
      compareWithin_right ih, compareWithin_unlike ih, compareWithin_like ih,
      compareWithin_trans ih⟩

theorem equalsWithin_self (ha : s.Sortable a) : s.equalsWithin (levels + 1) a a = .ok true := by
  cases ha.form with
  | scalar k hk =>
    rw [equalsWithin_scalar (.inr (hk ▸ rfl)), ha.form.sameKey_eq hk, decide_eq_true hk]
  | list p => rw [equalsWithin_list, if_pos rfl]

/-- Equal values have the order `.eq`. A list is equal to itself without a look at its items, whose
comparison takes one level more. -/
theorem compareWithin_of_like (ha : s.Sortable a) (hb : s.Sortable b)
    (h : s.equalsWithin (levels + 2) a b = .ok true) :
    s.compareWithin (levels + 2) a b = .ok (some .eq) := by
  obtain ⟨k, hk, hl⟩ | ⟨p, q, rfl, rfl, hpq⟩ := like_cases ha.form hb.form h
  · cases ha.form with
    | scalar j hj hself =>
      obtain rfl : j = k := Option.some.inj (hj.symm.trans hk)
      rw [compareWithin_key hk hl, hself]
    | list => cases hk
  · rw [compareWithin_list]
    obtain rfl | ⟨hlength, hlike⟩ := hpq
    · exact compareItems_of_everyPair rfl (everyPair_self fun v hv =>
        equalsWithin_self (ha.items v hv))
    · exact compareItems_of_everyPair hlength hlike

/-- The order of `Sortable` values, lists nested, shared and containing themselves as they may be,
is strict and agrees with equality. With its operands swapped a comparison has the opposite outcome
(`Ordering.swap`), and it fails or has none if the other one does. Values have the order `.eq` if
and only if they are equal. What is less than something less is less, and the comparison says so
without fail. -/
theorem compare_strict (ha : s.Sortable a) (hb : s.Sortable b) (hc : s.Sortable c) :
    s.compare b a = (s.compare a b).map (Option.map Ordering.swap) ∧
    (s.compare a b = .ok (some .eq) ↔ s.equals a b = .ok true) ∧
    (s.compare a b = .ok (some .lt) → s.compare b c = .ok (some .lt) →
      s.compare a c = .ok (some .lt)) := by
  have h := s.coherent (nestingLimit + 1)
  exact ⟨h.order_swap ha hb, ⟨h.like_of_eq ha hb, compareWithin_of_like ha hb⟩,
    h.order_trans ha hb hc⟩

/-- With a list `x` that contains itself, `[x, 1]` is less than `[x, 2]` and that is less than
`[x, 2, True]`. -/
theorem compare_strict_cyclic :
    let s : Store := ⟨#[#[.list 0], #[.list 0, .int 1], #[.list 0, .int 2],
      #[.list 0, .int 2, .bool true]], #[]⟩
    s.Sortable (.list 1) ∧ s.Sortable (.list 2) ∧ s.Sortable (.list 3) ∧
      s.compare (.list 1) (.list 3) = .ok (some .lt) ∧
      s.compare (.list 2) (.list 1) = .ok (some .gt) := by
  intro s
  have hlist (place : Nat) : s.Sortable (.list place) :=
    sortable_of_lists (by simp [s, Value.kind]) (by simp [Value.kind])
  have hfirst : s.compare (.list 1) (.list 2) = .ok (some .lt) := rfl
  have hsecond : s.compare (.list 2) (.list 3) = .ok (some .lt) := rfl
  obtain ⟨hswap, -, htrans⟩ := compare_strict (hlist 1) (hlist 2) (hlist 3)
  refine ⟨hlist 1, hlist 2, hlist 3, htrans hfirst hsecond, ?_⟩
  rw [hswap, hfirst]
  rfl

end Store

end Stepper
