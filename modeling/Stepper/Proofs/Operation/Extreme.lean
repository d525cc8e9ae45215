import Stepper.Builtin.Call
import Stepper.Proofs.Operation.Comparison

/-!
# The first extreme value

* `Store.compare_turned`, `Store.compare_trans`: the order of sortable values, upwards and downwards
  alike.
* `Store.FirstBest`: the first of the values that none is better than, of which each of `min` and
  `max` has its own notion.
* `Store.FirstBest.keep`, `Store.FirstBest.replace`: what one more value makes of it.
* `Operation.bestFrom_first`: the best of the values, found by comparing each with the best so far
  only, is better than or like every one of them.
* `Operation.bestFrom_returns`: among values that are all comparable it is found.
* `Builtin.extreme_first`: `min` and `max` return the first extreme value.
-/

namespace Stepper

variable {s s' : Store} {a b c v best m : Value} {order wanted : Ordering}
variable {values seen rest args : List Value} {op : CompareOp} {function : Builtin}

namespace Store

/-! ## The order of sortable values -/

theorem compare_self (ha : s.Sortable a) : s.compare a a = .ok (some .eq) :=
  compareWithin_of_like ha ha (equalsWithin_self ha)

/-- With its operands swapped a comparison has the opposite outcome, `order.swap`. -/
theorem compare_turned (ha : s.Sortable a) (hb : s.Sortable b)
    (h : s.compare a b = .ok (some order)) : s.compare b a = .ok (some order.swap) := by
  rw [compare, (s.coherent _).order_swap ha hb, ← compare, h]
  rfl

theorem compare_trans (ha : s.Sortable a) (hb : s.Sortable b) (hc : s.Sortable c)
    (hne : order ≠ .eq) (hab : s.compare a b = .ok (some order))
    (hbc : s.compare b c = .ok (some order)) : s.compare a c = .ok (some order) := by
  cases order with
  | lt => exact (s.coherent _).order_trans ha hb hc hab hbc
  | eq => exact absurd rfl hne
  | gt =>
    have hca : s.compare c a = .ok (some .lt) :=
      (s.coherent _).order_trans hc hb ha (compare_turned hb hc hbc) (compare_turned ha hb hab)
    exact compare_turned hc ha hca

/-- A value `a` that equals `b` compares with `c` as `b` does. -/
theorem compare_of_eq (ha : s.Sortable a) (hb : s.Sortable b) (hc : s.Sortable c)
    (hab : s.compare a b = .ok (some .eq)) (hbc : s.compare b c = .ok (some order)) :
    s.compare a c = .ok (some order) :=
  (s.coherent _).order_left ha hb hc ((s.coherent _).like_of_eq ha hb hab) hbc

/-- Whole numbers are comparable, and texts are: `compare` tells some `order`. -/
theorem exists_order (h : a.kind ∈ [.int, .bool] ∧ b.kind ∈ [.int, .bool] ∨
    a.kind = .str ∧ b.kind = .str) : ∃ order, s.compare a b = .ok (some order) := by
  cases a with
  | int | bool =>
    cases b with
    | int | bool => exact ⟨_, rfl⟩
    | _ => simp [Value.kind] at h
  | str =>
    cases b with
    | str => exact ⟨_, rfl⟩
    | _ => simp [Value.kind] at h
  | _ => simp [Value.kind] at h

/-! ## The first best value -/

/-- The value `best` is the first of the best ones among `values`: those `before` it are worse, and
those `after` it are not better. A value is better than another one if `wanted` is the order of the
two. -/
def FirstBest (s : Store) (wanted : Ordering) (values : List Value) (best : Value) : Prop :=
  ∃ before after, values = before ++ best :: after ∧
    (∀ v ∈ before, s.compare v best = .ok (some wanted.swap)) ∧
    s.compare best best = .ok (some .eq) ∧
    ∀ v ∈ after, ∃ order, s.compare v best = .ok (some order) ∧ order ≠ wanted

/-- One more value `v` that is not better (`order ≠ wanted`) leaves `best` the first best one. -/
theorem FirstBest.keep (h : s.FirstBest wanted values best)
    (hv : s.compare v best = .ok (some order)) (hne : order ≠ wanted) :
    s.FirstBest wanted (values ++ [v]) best := by
  obtain ⟨before, after, rfl, hbefore, hself, hafter⟩ := h
  refine ⟨before, after ++ [v], by simp, hbefore, hself, fun w hw => ?_⟩
  obtain hw | hw := List.mem_append.1 hw
  · exact hafter w hw
  · rw [List.mem_singleton.1 hw]
    exact ⟨order, hv, hne⟩

/-- One more value `v` that is better than `best` (`compare v best = wanted`) is the first best one:
by transitivity every `w` among `values`, none of which is better than `best`, is worse than `v`. -/
theorem FirstBest.replace (h : s.FirstBest wanted values best) (hwanted : wanted ≠ .eq)
    (hvalues : ∀ w ∈ values, s.Sortable w) (hv : s.Sortable v)
    (hbetter : s.compare v best = .ok (some wanted)) : s.FirstBest wanted (values ++ [v]) v := by
  obtain ⟨before, after, rfl, hbefore, hself, hafter⟩ := h
  have hbest : s.Sortable best := hvalues best (by simp)
  have hworse : s.compare best v = .ok (some wanted.swap) := compare_turned hv hbest hbetter
  have hswap : wanted.swap ≠ .eq := by cases wanted <;> simp_all
  refine ⟨before ++ best :: after, [], rfl, fun w hw => ?_, compare_self hv, nofun⟩
  have hsortable := hvalues w hw
  rw [List.mem_append, List.mem_cons] at hw
  -- Worse than `best`, `best` itself, or after it: as good as `best`, or worse.
  obtain hw | rfl | hw := hw
  · exact compare_trans hsortable hbest hv hswap (hbefore w hw) hworse
  · exact hworse
  · obtain ⟨order, horder, hne⟩ := hafter w hw
    obtain rfl | rfl : order = .eq ∨ order = wanted.swap := by
      cases order <;> cases wanted <;> simp_all
    · exact compare_of_eq hsortable hbest hv horder hworse
    · exact compare_trans hsortable hbest hv hswap horder hworse

end Store

namespace Operation

theorem bestFrom_cons (op : CompareOp) (wanted : Ordering) (best v : Value) (rest : List Value) :
    bestFrom op wanted best (v :: rest) = compare op v best >>= fun order =>
      bestFrom op wanted (if order == wanted then v else best) rest := rfl

/-- If `best` is the first best one of `seen`, what `bestFrom` finds is the first best one of
`seen ++ rest`. -/
theorem bestFrom_first (hwanted : wanted ≠ .eq) (hsortable : ∀ v ∈ seen ++ rest, s.Sortable v)
    (hseen : s.FirstBest wanted seen best) (h : bestFrom op wanted best rest s = .ok (m, s')) :
    s' = s ∧ s.FirstBest wanted (seen ++ rest) m := by
  -- On `rest`, with `best` the first best one of those seen so far.
  induction rest generalizing seen best with
  | nil =>
    cases h
    exact ⟨rfl, (List.append_nil seen).symm ▸ hseen⟩
  | cons v rest ih =>
    rw [bestFrom_cons] at h
    obtain ⟨order, hv, hrest⟩ := ok_of_compare_bind h
    have hseenSortable (w : Value) (hw : w ∈ seen) : s.Sortable w :=
      hsortable w (List.mem_append_left _ hw)
    rw [List.append_cons] at hsortable ⊢
    refine ih hsortable ?_ hrest
    by_cases horder : order = wanted
    · subst horder
      rw [if_pos (beq_self_eq_true order)]
      exact hseen.replace hwanted hseenSortable (hsortable v (by simp)) hv
    · rw [if_neg (by simpa using horder)]
      exact hseen.keep hv horder

/-- Among values that are all comparable `bestFrom` finds one. -/
theorem bestFrom_returns
    (h : ∀ v ∈ best :: rest, ∀ w ∈ best :: rest, ∃ order, s.compare v w = .ok (some order)) :
    ∃ m, bestFrom op wanted best rest s = .ok (m, s) := by
  induction rest generalizing best with
  | nil => exact ⟨best, rfl⟩
  | cons v rest ih =>
    obtain ⟨order, horder⟩ := h v (by simp) best (by simp)
    have hmem : ∀ w ∈ (if order == wanted then v else best) :: rest, w ∈ best :: v :: rest := by
      grind
    rw [bestFrom_cons, compare_bind, horder]
    exact ih fun x hx y hy => h x (hmem x hx) y (hmem y hy)

end Operation

/-! ## The functions -/

/-- What a call with these arguments chooses from: the items of the only one, `v`, or two arguments
and more. -/
inductive Store.Offers (s : Store) : List Value → List Value → Prop
  | items (v : Value) {values : List Value} :
      Operation.items v s = .ok (values, s) → Offers s [v] values
  | arguments (first second : Value) (rest : List Value) :
      Offers s (first :: second :: rest) (first :: second :: rest)

theorem Operation.extreme_run (h : s.Offers args (v :: rest)) (op : CompareOp) (wanted : Ordering) :
    extreme function op wanted args s = bestFrom op wanted v rest s := by
  cases h with
  | items w hitems =>
    change Except.bind (Operation.items w s) _ = _
    rw [hitems]
    rfl
  | arguments => rfl

theorem Builtin.call_extreme (h : s.Offers args (v :: rest))
    (hfunction : (function, wanted) ∈ [(min, Ordering.lt), (max, .gt)]) :
    ∃ op, function.call args [] s =
      (Operation.bestFrom op wanted v rest s).map fun r => ((r.1, ""), r.2) := by
  have hcall (op : CompareOp) : (do return (← Operation.extreme function op wanted args, "")) s =
      (Operation.bestFrom op wanted v rest s).map fun r => ((r.1, ""), r.2) := by
    change Except.bind (Operation.extreme function op wanted args s) _ = _
    rw [Operation.extreme_run h]
    cases Operation.bestFrom op wanted v rest s <;> rfl
  simp only [List.mem_cons, Prod.mk.injEq, List.not_mem_nil, or_false] at hfunction
  obtain ⟨rfl, rfl⟩ | ⟨rfl, rfl⟩ := hfunction
  · exact ⟨.lt, hcall .lt⟩
  · exact ⟨.gt, hcall .gt⟩

/-- The functions `min` and `max` return the first extreme value (`FirstBest`): of `values` that are
`Sortable`, what they return is comparable with all, none is better, and none before it is as good.
They always return among whole numbers and truth values, and among texts. -/
theorem Builtin.extreme_first (hoffers : s.Offers args values) (hne : values ≠ [])
    (hsortable : ∀ v ∈ values, s.Sortable v)
    (hfunction : (function, wanted) ∈ [(min, Ordering.lt), (max, .gt)]) :
    (∀ m printed s', function.call args [] s = .ok ((m, printed), s') →
      s' = s ∧ s.FirstBest wanted values m) ∧
    ((∀ v ∈ values, v.kind ∈ [.int, .bool]) ∨ (∀ v ∈ values, v.kind = .str) →
      ∃ m, function.call args [] s = .ok ((m, ""), s)) := by
  obtain ⟨first, rest, rfl⟩ := List.exists_cons_of_ne_nil hne
  obtain ⟨op, hcall⟩ := call_extreme hoffers hfunction
  rw [hcall]
  refine ⟨fun m printed s' h => ?_, fun hkinds => ?_⟩
  · have hwanted : wanted ≠ .eq := by rintro rfl; simp at hfunction
    have hfirst : s.FirstBest wanted [first] first :=
      ⟨[], [], rfl, nofun, Store.compare_self (hsortable first (by simp)), nofun⟩
    cases hbest : Operation.bestFrom op wanted first rest s with
    | error => rw [hbest] at h; cases h
    | ok r =>
      rw [hbest] at h
      cases h
      exact Operation.bestFrom_first hwanted hsortable hfirst hbest
  · obtain ⟨m, hm⟩ := Operation.bestFrom_returns fun v hv w hw => Store.exists_order
      (hkinds.imp (fun h => ⟨h v hv, h w hw⟩) fun h => ⟨h v hv, h w hw⟩)
    exact ⟨m, by rw [hm]; rfl⟩

/-- `min([2, 1, True])` is `1`, the first of the two that are equal. With a list `x` that contains
itself, the larger one of `[x]` and `[x, 'a']` is the second. -/
theorem Builtin.extreme_first_tie :
    let s : Store := ⟨#[#[.int 2, .int 1, .bool true], #[.list 1], #[.list 1],
      #[.list 1, .str "a"]], #[]⟩
    s.FirstBest .lt [.int 2, .int 1, .bool true] (.int 1) ∧
      (∃ m, min.call [.list 0] [] s = .ok ((m, ""), s)) ∧
      s.FirstBest .gt [.list 2, .list 3] (.list 3) := by
  intro s
  have hsortable (values : List Value)
      (hkinds : ∀ v ∈ values, v.kind ∈ [.int, .bool, .str, .list]) : ∀ v ∈ values, s.Sortable v :=
    fun v hv => Store.sortable_of_lists (by simp [s, Value.kind]) (hkinds v hv)
  have hnumbers : s.Offers [.list 0] [.int 2, .int 1, .bool true] := .items _ rfl
  obtain ⟨hleast, hreturns⟩ := extreme_first hnumbers (by simp)
    (hsortable _ (by simp [Value.kind])) (by simp : (min, Ordering.lt) ∈ _)
  obtain ⟨hlargest, -⟩ := extreme_first (.arguments (.list 2) (.list 3) []) (by simp)
    (hsortable _ (by simp [Value.kind])) (by simp : (max, Ordering.gt) ∈ _)
  exact ⟨(hleast _ _ s rfl).2, hreturns (.inl (by simp [Value.kind])), (hlargest _ _ s rfl).2⟩

end Stepper
