import Stepper.Store

/-!
# Well-formed values and stores

* `Value.WellFormed`: ranges do not stand still, methods belong to a value that has them, and of all
  functions a given property holds.
* `Dict.WellFormed`: keys are hashable, and none matches an earlier one.
* `Store.WellFormed`: all that lists and dicts hold is well-formed. Every change of a store that
  programs make keeps it so.
-/

namespace Stepper

variable {P : Function → Prop}

/-- Nothing is wrong with a value. What can be wrong with a function is a parameter, `P`. -/
def Value.WellFormed (P : Function → Prop) : Value → Prop
  | .range r => r.step ≠ 0
  | .function f => P f
  | .method receiver m => receiver.kind = m.owner ∧ receiver.WellFormed P
  | _ => True

namespace Value

theorem wellFormed_ofNumber (n : Number) : (ofNumber n).WellFormed P := by
  cases n <;> trivial

end Value

/-! ## Dicts -/

namespace Dict

/-- The keys of a dict can be told apart, and nothing is wrong with keys and values. -/
structure WellFormed (P : Function → Prop) (d : Dict) : Prop where
  hashable : ∀ k ∈ d.keys, k.isHashable
  distinct : d.keys.Pairwise fun a b => a.sameKey b = false
  keys : ∀ k ∈ d.keys, k.WellFormed P
  values : ∀ v ∈ d.values, v.WellFormed P

theorem wellFormed_empty : empty.WellFormed P :=
  ⟨nofun, .nil, nofun, nofun⟩

/-- An insertion adds `key` only if no key of `d` matches it. -/
theorem keys_insert (d : Dict) (key value : Value) :
    (d.insert key value).keys =
      if d.keys.any (·.sameKey key) then d.keys else d.keys ++ [key] := by
  obtain ⟨entries⟩ := d
  simp only [keys, insert]
  induction entries with
  | nil => rfl
  | cons entry rest ih =>
    obtain ⟨k, v⟩ := entry
    by_cases hk : k.sameKey key
    · simp [insertInto, hk]
    · have hk : k.sameKey key = false := by simpa using hk
      simp only [insertInto, hk, Bool.false_eq_true, if_false, List.map_cons, List.any_cons,
        Bool.false_or, ih, List.cons_append]
      exact apply_ite (k :: ·) _ _ _

theorem mem_values_insert {d : Dict} {key value v : Value} (h : v ∈ (d.insert key value).values) :
    v = value ∨ v ∈ d.values := by
  obtain ⟨entries⟩ := d
  simp only [values, insert] at h ⊢
  induction entries with
  | nil => exact .inl (List.mem_singleton.1 h)
  | cons entry rest ih =>
    obtain ⟨k, w⟩ := entry
    by_cases hk : k.sameKey key
    · simp only [insertInto, hk, if_true, List.map_cons, List.mem_cons] at h ⊢
      exact h.imp id .inr
    · simp only [insertInto, hk, Bool.false_eq_true, if_false, List.map_cons, List.mem_cons] at h ⊢
      rcases h with h | h
      · exact .inr (.inl h)
      · exact (ih h).imp id .inr

theorem WellFormed.insert {d : Dict} (h : d.WellFormed P) {key value : Value}
    (hhashable : key.isHashable) (hkey : key.WellFormed P) (hvalue : value.WellFormed P) :
    (d.insert key value).WellFormed P := by
  have hvalues : ∀ v ∈ (d.insert key value).values, v.WellFormed P := fun v hv =>
    (mem_values_insert hv).elim (fun h => h ▸ hvalue) (h.values v)
  by_cases hmatch : d.keys.any (·.sameKey key)
  · have hkeys : (d.insert key value).keys = d.keys := by rw [keys_insert, if_pos hmatch]
    exact ⟨hkeys ▸ h.hashable, hkeys ▸ h.distinct, hkeys ▸ h.keys, hvalues⟩
  · have hkeys : (d.insert key value).keys = d.keys ++ [key] := by rw [keys_insert, if_neg hmatch]
    have hnew : ∀ k ∈ d.keys, k.sameKey key = false := by simpa using hmatch
    refine ⟨?_, ?_, ?_, hvalues⟩
    · rw [hkeys]
      simpa [or_imp, forall_and] using ⟨h.hashable, hhashable⟩
    · rw [hkeys, List.pairwise_append]
      exact ⟨h.distinct, List.pairwise_singleton _ _, by simpa using hnew⟩
    · rw [hkeys]
      simpa [or_imp, forall_and] using ⟨h.keys, hkey⟩

theorem mem_values_of_get? {d : Dict} {key value : Value} (hget : d.get? key = some value) :
    value ∈ d.values := by
  simp only [Dict.get?, Option.map_eq_some_iff] at hget
  obtain ⟨entry, hfind, rfl⟩ := hget
  exact List.mem_map_of_mem (List.mem_of_find?_eq_some hfind)

theorem WellFormed.get? {d : Dict} (h : d.WellFormed P) {key value : Value}
    (hget : d.get? key = some value) : value.WellFormed P :=
  h.values value (mem_values_of_get? hget)

end Dict

/-! ## Stores -/

namespace Store

/-- All that the lists and dicts of a store hold is well-formed. -/
structure WellFormed (P : Function → Prop) (s : Store) : Prop where
  lists : ∀ items ∈ s.lists, ∀ v ∈ items, v.WellFormed P
  dicts : ∀ d ∈ s.dicts, d.WellFormed P

theorem wellFormed_empty : empty.WellFormed P :=
  ⟨by simp [empty], by simp [empty]⟩

theorem exists_of_mem_list {s : Store} {place : Nat} {v : Value} (h : v ∈ s.list place) :
    ∃ items ∈ s.lists, v ∈ items := by
  by_cases hplace : place < s.lists.size
  · rw [Store.list, Array.getD, dif_pos hplace] at h
    exact ⟨_, Array.getElem_mem hplace, h⟩
  · rw [Store.list, Array.getD, dif_neg hplace] at h
    exact absurd h (Array.not_mem_empty v)

theorem mem_modify {xs : Array α} {i : Nat} {f : α → α} {y : α} (h : y ∈ xs.modify i f) :
    y ∈ xs ∨ ∃ x ∈ xs, f x = y := by
  obtain ⟨j, hj, rfl⟩ := Array.getElem_of_mem h
  rw [Array.size_modify] at hj
  rw [Array.getElem_modify]
  split
  · exact .inr ⟨xs[j], Array.getElem_mem hj, rfl⟩
  · exact .inl (Array.getElem_mem hj)

namespace WellFormed

variable {s : Store}

theorem list (h : s.WellFormed P) (place : Nat) : ∀ v ∈ s.list place, v.WellFormed P := by
  intro v hv
  obtain ⟨items, hitems, hv⟩ := exists_of_mem_list hv
  exact h.lists items hitems v hv

theorem dict (h : s.WellFormed P) (place : Nat) : (s.dict place).WellFormed P := by
  by_cases hplace : place < s.dicts.size
  · rw [Store.dict, Array.getD, dif_pos hplace]
    exact h.dicts _ (Array.getElem_mem hplace)
  · rw [Store.dict, Array.getD, dif_neg hplace]
    exact Dict.wellFormed_empty

theorem addList (h : s.WellFormed P) {items : Array Value} (hitems : ∀ v ∈ items, v.WellFormed P) :
    (s.addList items).2.WellFormed P := by
  refine ⟨fun items' hmem => ?_, h.dicts⟩
  rcases Array.mem_push.1 hmem with hmem | rfl
  · exact h.lists items' hmem
  · exact hitems

theorem addDict (h : s.WellFormed P) {d : Dict} (hd : d.WellFormed P) :
    (s.addDict d).2.WellFormed P := by
  refine ⟨h.lists, fun d' hmem => ?_⟩
  rcases Array.mem_push.1 hmem with hmem | rfl
  · exact h.dicts d' hmem
  · exact hd

theorem modifyList (h : s.WellFormed P) (place : Nat) {f : Array Value → Array Value}
    (hf : ∀ items, (∀ v ∈ items, v.WellFormed P) → ∀ v ∈ f items, v.WellFormed P) :
    (s.modifyList place f).WellFormed P := by
  refine ⟨fun items hmem => ?_, h.dicts⟩
  rcases mem_modify hmem with hmem | ⟨old, hold, rfl⟩
  · exact h.lists items hmem
  · exact hf old (h.lists old hold)

theorem modifyDict (h : s.WellFormed P) (place : Nat) {f : Dict → Dict}
    (hf : ∀ d, d.WellFormed P → (f d).WellFormed P) : (s.modifyDict place f).WellFormed P := by
  refine ⟨h.lists, fun d hmem => ?_⟩
  rcases mem_modify hmem with hmem | ⟨old, hold, rfl⟩
  · exact h.dicts d hmem
  · exact hf old (h.dicts old hold)

end WellFormed

end Store

end Stepper
