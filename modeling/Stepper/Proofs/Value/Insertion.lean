import Mathlib.Data.Finset.Dedup
import Mathlib.Data.Finset.Card
import Mathlib.Data.List.Induction
import Stepper.Item
import Stepper.Proofs.Value.Key
import Stepper.Proofs.Value.WellFormed

/-!
# Dicts and their insertions

* `Dict.ofInserts`, `Dict.lastInserted`: the dict after insertions, and the last value that was
  inserted under a key.
* `Dict.get?_insert`, `Dict.get?_insert_self`: what an insertion changes.
* `Dict.insertion_ordered`: a dict is a finite map from keys, in the order of their first insertion.
* `Operation.getItem_setItem`: an item that was set is read back.
* `Dict.inserted_found`: what is inserted under a key that matches itself is found under it, and
  under a NaN nothing is found.
-/

namespace Stepper

/-- A new item `a` is added if no earlier one is equal to it by `r`. -/
theorem eraseDupsBy_concat (r : α → α → Bool) (as : List α) (a : α) :
    (as ++ [a]).eraseDupsBy r =
      if (as.eraseDupsBy r).any (r a) then as.eraseDupsBy r else as.eraseDupsBy r ++ [a] := by
  -- the loop collects what it keeps, the last item first
  have hloop (kept : List α) : List.eraseDupsBy.loop r (as ++ [a]) kept =
      if (List.eraseDupsBy.loop r as kept).any (r a) then List.eraseDupsBy.loop r as kept
      else List.eraseDupsBy.loop r as kept ++ [a] := by
    induction as generalizing kept with
    | nil =>
      simp only [List.nil_append, List.eraseDupsBy.loop, List.any_reverse]
      cases kept.any (r a) <;> simp
    | cons b as ih =>
      cases hseen : kept.any (r b) <;>
        simp only [List.cons_append, List.eraseDupsBy.loop, hseen, ih]
  exact hloop []

namespace Dict

variable {d : Dict} {k j v : Value} {inserts : List (Value × Value)}

/-! ## One insertion -/

theorem size_eq (d : Dict) : d.size = d.keys.length :=
  (List.length_map _).symm

theorem get?_mk_cons (entry : Value × Value) (entries : List (Value × Value)) (j : Value) :
    (mk (entry :: entries)).get? j =
      if entry.1.sameKey j then some entry.2 else (mk entries).get? j := by
  unfold get?
  rw [List.find?_cons]
  split <;> simp_all

/-- A value `v` is found under the key `k` under which it was inserted, if the key matches
itself. -/
theorem get?_insert_self (d : Dict) (v : Value) (hk : k.sameKey k) :
    (d.insert k v).get? k = some v := by
  obtain ⟨entries⟩ := d
  change (mk (insertInto k v entries)).get? k = some v
  induction entries with
  | nil => rw [insertInto, get?_mk_cons, if_pos hk]
  | cons entry entries ih =>
    rw [insertInto]
    split
    · rename_i hmatch
      rw [get?_mk_cons, if_pos hmatch]
    · rename_i hmatch
      rw [get?_mk_cons, if_neg hmatch]
      exact ih

/-- An insertion under `k` changes what is found under the keys that match it, and nothing else. -/
theorem get?_insert (hd : ∀ k ∈ d.keys, k.key?.isSome) (hk : k.key?.isSome) (hj : j.key?.isSome) :
    (d.insert k v).get? j = if k.sameKey j then some v else d.get? j := by
  obtain ⟨entries⟩ := d
  change (mk (insertInto k v entries)).get? j = _
  induction entries with
  | nil => rw [insertInto, get?_mk_cons]
  | cons entry entries ih =>
    have hentry : entry.1.key?.isSome := hd entry.1 List.mem_cons_self
    have hrest : ∀ k ∈ (mk entries).keys, k.key?.isSome :=
      fun k hk => hd k (List.mem_cons_of_mem _ hk)
    rw [insertInto]
    split
    · rename_i hmatch
      -- The entry keeps its own key, which matches `j` just as `k` does.
      have hsame : entry.1.sameKey j = k.sameKey j := by
        rw [Value.sameKey_eq hentry hj, (Value.sameKey_iff hentry hk).1 hmatch,
          Value.sameKey_eq hk hj]
      rw [get?_mk_cons, get?_mk_cons, hsame]
      split <;> rfl
    · rename_i hmatch
      rw [get?_mk_cons, get?_mk_cons, ih hrest]
      by_cases hkj : k.sameKey j
      · have hother : entry.1.sameKey j = false := by
          rw [Value.sameKey_iff hentry hk, (Value.sameKey_iff hk hj).1 hkj] at hmatch
          rw [Value.sameKey_eq hentry hj, decide_eq_false hmatch]
        simp [hkj, hother]
      · simp [hkj]

/-! ## Dicts of proper keys -/

/-- No key of `d` is a float or a method, and none matches a later one. -/
structure Proper (d : Dict) : Prop where
  keys : ∀ k ∈ d.keys, k.key?.isSome
  distinct : d.keys.Pairwise fun a b => a.sameKey b = false

/-- Under the key of each `entry` its own value is found. -/
theorem Proper.get?_of_mem (hd : d.Proper) {entry : Value × Value} (h : entry ∈ d.entries) :
    d.get? entry.1 = some entry.2 := by
  obtain ⟨entries⟩ := d
  induction entries with
  | nil => cases h
  | cons first entries ih =>
    obtain ⟨hfirst, hrest⟩ := List.pairwise_cons.1 hd.distinct
    rw [get?_mk_cons]
    rcases List.mem_cons.1 h with rfl | h
    · have hkey := hd.keys entry.1 List.mem_cons_self
      rw [if_pos ((Value.sameKey_iff hkey hkey).2 rfl)]
    · rw [if_neg (by simp [hfirst entry.1 (List.mem_map_of_mem h)])]
      exact ih ⟨fun k hk => hd.keys k (List.mem_cons_of_mem _ hk), hrest⟩ h

/-- No two keys of `d` are one. -/
theorem Proper.nodup (hd : d.Proper) : (d.keys.map Value.key?).Nodup := by
  rw [List.Nodup, List.pairwise_map]
  refine hd.distinct.imp_of_mem fun ha hb hne heq => ?_
  rw [Value.sameKey_eq (hd.keys _ ha) (hd.keys _ hb), decide_eq_true heq] at hne
  exact Bool.noConfusion hne

/-! ## A sequence of insertions -/

/-- The dict after `inserts`, the first one first. -/
def ofInserts (inserts : List (Value × Value)) : Dict :=
  inserts.foldl (fun d entry => d.insert entry.1 entry.2) .empty

/-- The value of the last of `inserts` whose key matches `k`. -/
def lastInserted (inserts : List (Value × Value)) (k : Value) : Option Value :=
  (inserts.reverse.find? (·.1.sameKey k)).map (·.2)

theorem ofInserts_concat (inserts : List (Value × Value)) (entry : Value × Value) :
    ofInserts (inserts ++ [entry]) = (ofInserts inserts).insert entry.1 entry.2 := by
  rw [ofInserts, List.foldl_append]
  rfl

theorem lastInserted_concat (inserts : List (Value × Value)) (entry : Value × Value) (k : Value) :
    lastInserted (inserts ++ [entry]) k =
      if entry.1.sameKey k then some entry.2 else lastInserted inserts k := by
  unfold lastInserted
  rw [List.reverse_concat, List.find?_cons]
  split <;> simp_all

/-- No key of the dict matches a later one, whatever `inserts` are. -/
theorem keys_ofInserts_distinct (inserts : List (Value × Value)) :
    (ofInserts inserts).keys.Pairwise fun a b => a.sameKey b = false := by
  induction inserts using List.reverseRecOn with
  | nil => exact .nil
  | append_singleton inserts entry ih =>
    rw [ofInserts_concat, keys_insert]
    split
    · exact ih
    · rename_i hnone
      rw [List.pairwise_append]
      exact ⟨ih, List.pairwise_singleton _ _, by simpa using hnone⟩

theorem mem_keys_ofInserts (hk : k ∈ (ofInserts inserts).keys) : k ∈ inserts.map (·.1) := by
  induction inserts using List.reverseRecOn with
  | nil => exact absurd hk List.not_mem_nil
  | append_singleton inserts entry ih =>
    rw [ofInserts_concat, keys_insert] at hk
    rw [List.map_append, List.mem_append]
    split at hk
    · exact .inl (ih hk)
    · exact (List.mem_append.1 hk).imp_left ih

theorem proper_ofInserts (h : ∀ entry ∈ inserts, entry.1.key?.isSome) :
    (ofInserts inserts).Proper := by
  refine ⟨fun k hk => ?_, keys_ofInserts_distinct inserts⟩
  obtain ⟨entry, hentry, rfl⟩ := List.mem_map.1 (mem_keys_ofInserts hk)
  exact h entry hentry

/-- What is found under `k` is what was last inserted under a key that matches. -/
theorem get?_ofInserts (h : ∀ entry ∈ inserts, entry.1.key?.isSome) (hk : k.key?.isSome) :
    (ofInserts inserts).get? k = lastInserted inserts k := by
  induction inserts using List.reverseRecOn with
  | nil => rfl
  | append_singleton inserts entry ih =>
    simp only [List.forall_mem_append, List.forall_mem_singleton] at h
    have hkeys := (proper_ofInserts h.1).keys
    rw [ofInserts_concat, lastInserted_concat, get?_insert hkeys h.2 hk, ih h.1]

/-- The keys are the first of those that match each other, in the order of `inserts`. -/
theorem keys_ofInserts (h : ∀ entry ∈ inserts, entry.1.key?.isSome) :
    (ofInserts inserts).keys = (inserts.map (·.1)).eraseDupsBy Value.sameKey := by
  induction inserts using List.reverseRecOn with
  | nil => rfl
  | append_singleton inserts entry ih =>
    simp only [List.forall_mem_append, List.forall_mem_singleton] at h
    have hsymm : (ofInserts inserts).keys.any (·.sameKey entry.1) =
        (ofInserts inserts).keys.any entry.1.sameKey := by
      rw [Bool.eq_iff_iff, List.any_eq_true, List.any_eq_true]
      refine exists_congr fun k => and_congr_right fun hk => ?_
      have hkey := (proper_ofInserts h.1).keys k hk
      rw [Value.sameKey_iff hkey h.2, Value.sameKey_iff h.2 hkey, eq_comm]
    rw [ofInserts_concat, keys_insert, hsymm]
    rw [List.map_append, List.map_singleton, eraseDupsBy_concat, ih h.1]

/-- As keys, what was inserted and what the dict has are the same. -/
theorem mem_key?_ofInserts (h : ∀ entry ∈ inserts, entry.1.key?.isSome) (c : Option Key) :
    c ∈ (ofInserts inserts).keys.map Value.key? ↔ c ∈ inserts.map (·.1.key?) := by
  induction inserts using List.reverseRecOn with
  | nil => rfl
  | append_singleton inserts entry ih =>
    simp only [List.forall_mem_append, List.forall_mem_singleton] at h
    rw [ofInserts_concat, keys_insert, List.map_append, List.mem_append, ← ih h.1]
    split
    · rename_i hmatch
      obtain ⟨k, hk, hsame⟩ := List.any_eq_true.1 hmatch
      have hmem : entry.1.key? ∈ (ofInserts inserts).keys.map Value.key? := by
        rw [← (Value.sameKey_iff ((proper_ofInserts h.1).keys k hk) h.2).1 hsame]
        exact List.mem_map_of_mem hk
      exact (or_iff_left_of_imp fun hc => List.mem_singleton.1 hc ▸ hmem).symm
    · rw [List.map_append, List.mem_append]
      rfl

/-- There are as many entries as keys in `inserts`, up to those that match. -/
theorem size_ofInserts (h : ∀ entry ∈ inserts, entry.1.key?.isSome) :
    (ofInserts inserts).size = (inserts.map (·.1.key?)).toFinset.card := by
  have hnodup := (proper_ofInserts h).nodup
  have hsame : (inserts.map (·.1.key?)).toFinset =
      ((ofInserts inserts).keys.map Value.key?).toFinset := by
    ext c
    rw [List.mem_toFinset, List.mem_toFinset, mem_key?_ofInserts h]
  rw [hsame, List.toFinset_card_of_nodup hnodup, List.length_map, size_eq]

/-- A dict is a finite map that keeps the order of `inserts`. On all keys but floats and methods,
`sameKey` is an equivalence, by which a truth value is a number. What is found under `k` is the
value last inserted under a key that matches. The keys are the first ones inserted of each class
that match each other, in that order and each class once, with their last values, and they are as
many as there are classes. An insertion under `k` changes nothing under a `j` that does not
match. -/
theorem insertion_ordered (h : ∀ entry ∈ inserts, entry.1.key?.isSome) :
    (Equivalence fun a b : {k : Value // k.key?.isSome} => a.1.sameKey b.1) ∧
    (∀ (b : Bool) (n : Int64), (Value.bool b).sameKey (.int n) ↔ n = if b then 1 else 0) ∧
    (∀ k : Value, k.key?.isSome → (ofInserts inserts).get? k = lastInserted inserts k) ∧
    (ofInserts inserts).keys = (inserts.map (·.1)).eraseDupsBy Value.sameKey ∧
    ((ofInserts inserts).keys.Pairwise fun a b => a.sameKey b = false) ∧
    (ofInserts inserts).values.map some = (ofInserts inserts).keys.map (lastInserted inserts) ∧
    (ofInserts inserts).size = (inserts.map (·.1.key?)).toFinset.card ∧
    ∀ k v j : Value, k.key?.isSome → j.key?.isSome → k.sameKey j = false →
      ((ofInserts inserts).insert k v).get? j = (ofInserts inserts).get? j := by
  have hproper := proper_ofInserts h
  refine ⟨?_, fun b n => ?_, fun k hk => get?_ofInserts h hk, keys_ofInserts h, hproper.distinct,
    ?_, size_ofInserts h, fun k v j hk hj hne => ?_⟩
  · have hiff (a b : {k : Value // k.key?.isSome}) : a.1.sameKey b.1 ↔ a.1.key? = b.1.key? :=
      Value.sameKey_iff a.2 b.2
    simp only [hiff]
    exact ⟨fun _ => rfl, Eq.symm, Eq.trans⟩
  · rw [Value.sameKey_iff rfl rfl]
    simp [Value.key?, eq_comm]
  · rw [values, keys, List.map_map, List.map_map]
    refine List.map_congr_left fun entry hentry => ?_
    have hkey := hproper.keys entry.1 (List.mem_map_of_mem hentry)
    exact (hproper.get?_of_mem hentry).symm.trans (get?_ofInserts h hkey)
  · rw [get?_insert hproper.keys hk hj, hne]
    rfl

/-- The number `1`, inserted under a truth value that stands first, is the last value there. -/
theorem insertion_ordered_truth :
    let inserts : List (Value × Value) :=
      [(.bool true, .str "a"), (.str "x", .none), (.int 1, .str "b"), (.int 0, .none)]
    (∀ entry ∈ inserts, entry.1.key?.isSome) ∧
    (ofInserts inserts).get? (.int 1) = some (.str "b") ∧
    (ofInserts inserts).keys = [.bool true, .str "x", .int 0] ∧
    (ofInserts inserts).size = 3 := by
  intro inserts
  have hproper : ∀ entry ∈ inserts, entry.1.key?.isSome := by simp [inserts, Value.key?]
  obtain ⟨-, -, hget, hkeys, -, -, hsize, -⟩ := insertion_ordered hproper
  exact ⟨hproper, hget (.int 1) rfl, hkeys, hsize.trans (by decide)⟩

/-! ## What is found after an insertion -/

/-- A second insertion under a key `k` that matches itself adds no entry. -/
theorem size_insert_insert (d : Dict) (v w : Value) (hk : k.sameKey k) :
    ((d.insert k v).insert k w).size = (d.insert k v).size := by
  have hfound : (d.insert k v).keys.any (·.sameKey k) := by
    rw [keys_insert]
    split
    · assumption
    · simp [hk]
  rw [size_eq, size_eq, keys_insert, if_pos hfound]

/-- Nothing is found under a NaN `x`. -/
theorem get?_float_of_isNaN (d : Dict) {x : Float} (hx : x.isNaN) : d.get? (.float x) = none := by
  have hnone : d.entries.find? (·.1.sameKey (.float x)) = none :=
    List.find?_eq_none.2 fun entry _ => by simp [entry.1.sameKey_float_of_isNaN hx]
  rw [get?, hnone]
  rfl

/-- An insertion under a NaN `x` adds an entry. -/
theorem size_insert_of_isNaN (d : Dict) (v : Value) {x : Float} (hx : x.isNaN) :
    (d.insert (.float x) v).size = d.size + 1 := by
  have hnone : ¬ d.keys.any (·.sameKey (.float x)) := by
    simp [Value.sameKey_float_of_isNaN _ hx]
  rw [size_eq, size_eq, keys_insert, if_neg hnone, List.length_append, List.length_singleton]

end Dict

/-- After a look at the store `s` an operation goes on with what was seen, `f s`. -/
theorem Operation.look_bind (f : Store → α) (g : α → Operation β) (s : Store) :
    (look f >>= g) s = g (f s) s :=
  rfl

/-- An item `v` that was set under a key `k` that matches itself is found under it. -/
theorem Operation.getItem_setItem {k : Value} (hhashable : k.isHashable) (hk : k.sameKey k)
    (v : Value) {s : Store} {place : Nat} (hplace : place < s.dicts.size) :
    (do setItem (.dict place) k v; getItem (.dict place) k : Operation Value) s =
      .ok (v, s.modifyDict place (·.insert k v)) := by
  have hcheck : checkKey k = pure () := if_pos hhashable
  generalize ht : s.modifyDict place (·.insert k v) = t
  have hset : setItem (.dict place) k v s = .ok ((), t) := by
    rw [setItem, hcheck, ← ht]
    rfl
  have hfound : (t.dict place).get? k = some v := by
    have hdict : t.dict place = s.dicts[place].insert k v := by
      simp [← ht, Store.dict, Store.modifyDict, hplace, Array.getElem_modify_self]
    rw [hdict, Dict.get?_insert_self _ v hk]
  have hget : getItem (.dict place) k t = .ok (v, t) := by
    rw [getItem, hcheck, pure_bind, look_bind, hfound]
    rfl
  change (setItem (.dict place) k v s).bind (fun r => getItem (.dict place) k r.2) = _
  rw [hset]
  exact hget

namespace Dict

/-- Whatever may be a key `k` can be found again in `d`, if it is neither a NaN nor a method: after
an insertion its value `v` is what is found under it, an item that was set is read back, and a
second insertion adds no entry. A NaN equals no value, itself neither: nothing is found under it,
and every insertion adds an entry. -/
theorem inserted_found (d : Dict) (v : Value) :
    (∀ k : Value, k.isHashable → (∀ x, k = .float x → x.isNaN = false) →
      (∀ receiver m, k ≠ .method receiver m) →
        (d.insert k v).get? k = some v ∧ (d.insert k v).contains k ∧
        (∀ w, ((d.insert k v).insert k w).size = (d.insert k v).size) ∧
        ∀ (s : Store) (place : Nat), place < s.dicts.size →
          (do Operation.setItem (.dict place) k v; Operation.getItem (.dict place) k) s =
            .ok (v, s.modifyDict place (·.insert k v))) ∧
    ∀ x : Float, x.isNaN →
      (d.insert (.float x) v).get? (.float x) = none ∧
      (d.insert (.float x) v).size = d.size + 1 := by
  refine ⟨fun k hhashable hfloat hmethod => ?_, fun x hx => ?_⟩
  · have hself : k.sameKey k := Value.sameKey_self hhashable hfloat hmethod
    have hfound : (d.insert k v).get? k = some v := get?_insert_self d v hself
    refine ⟨hfound, ?_, fun w => size_insert_insert d v w hself, fun s place hplace => ?_⟩
    · rw [contains, hfound]
      rfl
    · exact Operation.getItem_setItem hhashable hself v hplace
  · exact ⟨get?_float_of_isNaN _ hx, size_insert_of_isNaN d v hx⟩

/-- Under the float `1.0`, which matches `True` in the dict, the new value is found, and under a NaN
nothing is. -/
theorem inserted_found_float :
    let d := ofInserts [(.bool true, .none)]
    (Value.float 1.0).isHashable ∧ (1.0 : Float).isNaN = false ∧ Number.notANumber.isNaN ∧
      (d.insert (.float 1.0) (.int 7)).get? (.float 1.0) = some (.int 7) ∧
      (d.insert (.float Number.notANumber) (.int 7)).get? (.float Number.notANumber) = none := by
  intro d
  have hone : (1.0 : Float).isNaN = false := by decide
  have hnan : Number.notANumber.isNaN := by decide
  obtain ⟨hfound, hlost⟩ := inserted_found d (.int 7)
  have hfloat : ∀ x, Value.float 1.0 = .float x → x.isNaN = false := by
    rintro x ⟨⟩
    exact hone
  exact ⟨rfl, hone, hnan, (hfound (.float 1.0) rfl hfloat nofun).1, (hlost _ hnan).1⟩

/-- A NaN and the method `'a'.upper` may be keys, and they are not found after they were
inserted. -/
theorem inserted_lost :
    (Value.float Number.notANumber).isHashable ∧
    (empty.insert (.float Number.notANumber) (.int 1)).get? (.float Number.notANumber) = none ∧
    (Value.method (.str "a") .upper).isHashable ∧
    (empty.insert (.method (.str "a") .upper) (.int 1)).get? (.method (.str "a") .upper) =
      none := by
  refine ⟨rfl, ?_, rfl, rfl⟩
  exact get?_float_of_isNaN _ (by decide)

end Dict

end Stepper
