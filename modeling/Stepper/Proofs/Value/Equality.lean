import Mathlib.Data.List.Find
import Mathlib.Data.List.Perm.Subperm
import Stepper.Proofs.Value.Insertion
import Stepper.Value.Compare

/-!
# Equality is structural

* `Tree`, `Store.tree`: what a value unfolds to: scalars up to matching, lists of trees, and finite
  maps from keys to trees, in which the order of a dict is gone.
* `Store.Plain`: values without floats and methods, with dicts made by insertions, whose containers
  are nested only so deep.
* `Answers`: a test ends, with the truth of a statement as its answer.
* `Dict.unfolded_eq_iff`: two dicts are one map if they are of one size and every entry of the first
  has its like in the second.
* `Store.equals_structural`: two plain values are equal if their trees are.
-/

namespace Stepper

/-- What a value is apart from the places of its containers and the order of its dicts. A scalar
without key (`none`) stands for what is not unfolded. -/
inductive Tree where
  | scalar (k : Option Key)
  | list (items : List Tree)
  | dict (entries : Key → Option Tree)

/-! ## Tests that end -/

/-- The `test` ends with an answer, which is yes if and only if `P` is true. -/
def Answers (test : Except ε Bool) (P : Prop) : Prop :=
  ∃ answer, test = .ok answer ∧ (answer ↔ P)

section Answers

variable {test : Except ε Bool} {P Q : Prop}

theorem Answers.iff (h : Answers test P) : test = .ok true ↔ P := by
  obtain ⟨answer, rfl, hanswer⟩ := h
  rw [← hanswer, Except.ok.injEq]

theorem Answers.congr (h : Answers test P) (hPQ : P ↔ Q) : Answers test Q := by
  obtain ⟨answer, htest, hanswer⟩ := h
  exact ⟨answer, htest, hanswer.trans hPQ⟩

theorem answers_true (hP : P) : Answers (.ok true : Except ε Bool) P :=
  ⟨true, rfl, iff_of_true rfl hP⟩

theorem answers_false (hP : ¬ P) : Answers (.ok false : Except ε Bool) P :=
  ⟨false, rfl, iff_of_false Bool.false_ne_true hP⟩

/-- One `test`, and the `next` one if its answer is yes. -/
theorem Answers.and {next : Except ε Bool} (h : Answers test P) (hnext : Answers next Q) :
    Answers (do if ← test then next else return false) (P ∧ Q) := by
  obtain ⟨answer, rfl, hanswer⟩ := h
  obtain ⟨other, rfl, hother⟩ := hnext
  cases answer with
  | true => exact ⟨other, rfl, by simpa [← hanswer] using hother⟩
  | false => exact answers_false (by simp [← hanswer])

variable {p : α → α → Except ε Bool} {f : α → β}

/-- Lists `as` and `bs` of one length, item by item. -/
theorem everyPair_answers {as bs : List α} (hlength : as.length = bs.length)
    (h : ∀ a ∈ as, ∀ b ∈ bs, Answers (p a b) (f a = f b)) :
    Answers (everyPair p as bs) (as.map f = bs.map f) := by
  induction as generalizing bs with
  | nil =>
    obtain rfl := List.length_eq_zero_iff.1 hlength.symm
    exact answers_true rfl
  | cons a as ih =>
    cases bs with
    | nil => cases hlength
    | cons b bs =>
      have hfirst := h a List.mem_cons_self b List.mem_cons_self
      have hrest := ih (Nat.succ.inj hlength) fun a ha b hb =>
        h a (List.mem_cons_of_mem _ ha) b (List.mem_cons_of_mem _ hb)
      rw [everyPair]
      exact (hfirst.and hrest).congr (by simp)

variable {p : Value → Value → Except ε Bool} {f : Value → β}

/-- The `entries`, each with what is found in `d` under its key. -/
theorem everyEntry_answers {d : Dict} {entries : List (Value × Value)}
    (h : ∀ entry ∈ entries, ∀ v ∈ d.values, Answers (p entry.2 v) (f entry.2 = f v)) :
    Answers (everyEntry p d entries)
      (∀ entry ∈ entries, (d.get? entry.1).map f = some (f entry.2)) := by
  induction entries with
  | nil => exact answers_true (List.forall_mem_nil _)
  | cons entry entries ih =>
    have hrest := ih fun entry hentry => h entry (List.mem_cons_of_mem _ hentry)
    obtain ⟨k, v⟩ := entry
    rw [everyEntry]
    cases hget : d.get? k with
    | none => exact answers_false fun hall => by simpa [hget] using hall _ List.mem_cons_self
    | some other =>
      have hfirst := h (k, v) List.mem_cons_self other (Dict.mem_values_of_get? hget)
      exact (hfirst.and hrest).congr (by simp [hget, eq_comm])

end Answers

/-! ## Dicts as maps -/

namespace Dict

/-- The value of `d` under the key `k`. -/
def under? (d : Dict) (k : Key) : Option Value :=
  (d.entries.find? (·.1.key? = some k)).map (·.2)

variable {d e : Dict} {f : Value → β}

theorem Proper.get?_eq (hd : d.Proper) {v : Value} {k : Key} (hv : v.key? = some k) :
    d.get? v = d.under? k := by
  have hmatch : ∀ entry ∈ d.entries, entry.1.sameKey v = decide (entry.1.key? = some k) := by
    intro entry hentry
    rw [Value.sameKey_eq (hd.keys _ (List.mem_map_of_mem hentry)) (hv ▸ rfl), hv]
  rw [get?, under?, List.find?_congr hmatch]

/-- The keys of `d` are those under which there is a value. -/
theorem Proper.mem_key?_iff (hd : d.Proper) (c : Option Key) :
    c ∈ d.keys.map Value.key? ↔ (c.bind d.under?).isSome := by
  cases c with
  | none =>
    refine iff_of_false (fun h => ?_) Bool.false_ne_true
    obtain ⟨k, hk, hnone⟩ := List.mem_map.1 h
    exact Option.isSome_iff_ne_none.1 (hd.keys k hk) hnone
  | some k => simp [under?, Dict.keys]

theorem Proper.exists_key (hd : d.Proper) {entry : Value × Value} (h : entry ∈ d.entries) :
    ∃ k, entry.1.key? = some k ∧ d.under? k = some entry.2 := by
  obtain ⟨k, hk⟩ := Option.isSome_iff_exists.1 (hd.keys _ (List.mem_map_of_mem h))
  exact ⟨k, hk, (hd.get?_eq hk).symm.trans (hd.get?_of_mem h)⟩

theorem length_key? (d : Dict) : (d.keys.map Value.key?).length = d.size := by
  rw [List.length_map, size_eq]

/-- The dicts `d` and `e`, in which the same keys are found, have the same keys. -/
theorem Proper.perm_of_isSome (hd : d.Proper) (he : e.Proper)
    (h : ∀ k, (d.under? k).isSome = (e.under? k).isSome) :
    (d.keys.map Value.key?).Perm (e.keys.map Value.key?) := by
  refine (List.perm_ext_iff_of_nodup hd.nodup he.nodup).2 fun c => ?_
  rw [hd.mem_key?_iff, he.mem_key?_iff]
  cases c with
  | none => rfl
  | some k => exact Bool.eq_iff_iff.1 (h k)

/-- Dicts `d` and `e` of one size have the same keys if all keys of `d` are found in `e`. -/
theorem Proper.perm_of_get? (hd : d.Proper) (he : e.Proper) (hsize : d.size = e.size)
    (h : ∀ entry ∈ d.entries, (e.get? entry.1).isSome) :
    (d.keys.map Value.key?).Perm (e.keys.map Value.key?) := by
  have hsubset : d.keys.map Value.key? ⊆ e.keys.map Value.key? := by
    intro c hc
    rw [Dict.keys, List.map_map] at hc
    obtain ⟨entry, hentry, rfl⟩ := List.mem_map.1 hc
    obtain ⟨k, hk, -⟩ := hd.exists_key hentry
    rw [Function.comp_apply, hk, he.mem_key?_iff]
    simpa [he.get?_eq hk] using h entry hentry
  -- no key of the first comes twice, and there are as many in the second: these are all of them
  refine (List.subperm_of_subset hd.nodup hsubset).perm_of_length_le ?_
  rw [length_key?, length_key?, hsize]

/-- Two dicts of proper keys are one map, with `f` of their values, if and only if they are of one
size and each entry of `d` has its like in `e`. -/
theorem unfolded_eq_iff (hd : d.Proper) (he : e.Proper) :
    ((fun k => (d.under? k).map f) = fun k => (e.under? k).map f) ↔
      d.size = e.size ∧ ∀ entry ∈ d.entries, (e.get? entry.1).map f = some (f entry.2) := by
  constructor
  · intro hmap
    have hunder (k : Key) : (d.under? k).map f = (e.under? k).map f := congrFun hmap k
    have hperm := hd.perm_of_isSome he fun k => by
      simpa using congrArg Option.isSome (hunder k)
    refine ⟨?_, fun entry hentry => ?_⟩
    · rw [← length_key? d, ← length_key? e, hperm.length_eq]
    · obtain ⟨k, hk, hown⟩ := hd.exists_key hentry
      rw [he.get?_eq hk, ← hunder, hown, Option.map_some]
  · rintro ⟨hsize, hall⟩
    -- All keys of `d` are keys of `e`, and there are as many: so `e` has no others.
    have hperm := hd.perm_of_get? he hsize fun entry hentry => by
      simpa using congrArg Option.isSome (hall entry hentry)
    funext k
    cases hown : d.under? k with
    | none =>
      have hnone : some k ∉ e.keys.map Value.key? := by
        rw [← hperm.mem_iff, hd.mem_key?_iff]
        simp [hown]
      have hnone : e.under? k = none := by simpa [he.mem_key?_iff] using hnone
      rw [hnone]
    | some v =>
      obtain ⟨entry, hfind, rfl⟩ := Option.map_eq_some_iff.1 hown
      have hk : entry.1.key? = some k := by simpa using List.find?_some hfind
      rw [Option.map_some, ← hall entry (List.mem_of_find?_eq_some hfind), he.get?_eq hk]

end Dict

/-! ## Values and their trees -/

namespace Store

/-- The tree that a value unfolds to in `s`, with containers unfolded `depth` deep. -/
def tree (s : Store) : Nat → Value → Tree
  | depth + 1, .list place => .list ((s.list place).toList.map (s.tree depth))
  | depth + 1, .dict place => .dict fun k => ((s.dict place).under? k).map (s.tree depth)
  | _, v => .scalar v.key?

/-- A value without floats and methods whose containers in `s` are nested at most `depth` deep and
whose dicts were made by insertions (`Dict.ofInserts`). -/
inductive Plain (s : Store) : Nat → Value → Prop
  | scalar {depth : Nat} {v : Value} : v.key?.isSome → Plain s depth v
  | list {depth place : Nat} : (∀ v ∈ s.list place, Plain s depth v) →
      Plain s (depth + 1) (.list place)
  | dict {depth place : Nat} (inserts : List (Value × Value)) :
      s.dict place = .ofInserts inserts → (∀ k ∈ (s.dict place).keys, k.key?.isSome) →
        (∀ v ∈ (s.dict place).values, Plain s depth v) → Plain s (depth + 1) (.dict place)

variable {s : Store} {a b c : Value} {depth place other : Nat}

theorem tree_scalar (h : a.key?.isSome) : s.tree depth a = .scalar a.key? := by
  cases depth <;> cases a <;> first | rfl | cases h

/-- A scalar, `a` or `b`, is compared as a key, whatever the other one is. -/
theorem equalsWithin_scalar (h : a.key?.isSome ∨ b.key?.isSome) (levels : Nat) :
    s.equalsWithin (levels + 1) a b = .ok (a.sameKey b) := by
  rcases h with h | h
  · cases a <;> first | rfl | cases h
  · cases b <;> first | (cases a <;> rfl) | cases h

theorem sameKey_list (b : Value) : (Value.list place).sameKey b = false := by
  cases b <;> rfl

theorem sameKey_dict (b : Value) : (Value.dict place).sameKey b = false := by
  cases b <;> rfl

/-- The equality of two plain values is decided, and it is the equality of their trees, by induction
on `depth`. -/
theorem equalsWithin_answers (ha : s.Plain depth a) (hb : s.Plain depth b) :
    Answers (s.equalsWithin (depth + 1) a b) (s.tree depth a = s.tree depth b) := by
  -- On the depth of `a`, with cases of `b` in each: only containers of one kind are compared
  -- inside.
  induction ha generalizing b with
  | @scalar depth a ha =>
    rw [equalsWithin_scalar (.inl ha), tree_scalar ha]
    refine ⟨_, rfl, ?_⟩
    cases hb with
    | scalar hb => rw [tree_scalar hb, Value.sameKey_iff ha hb, Tree.scalar.injEq]
    | list | dict => cases a <;> simp [tree, Value.sameKey, Value.number?]
  | @list depth place hitems ih =>
    cases hb with
    | scalar hb =>
      rw [equalsWithin_scalar (.inr hb), tree_scalar hb, sameKey_list]
      exact answers_false (by simp [tree])
    | dict => exact answers_false (by simp [tree])
    | @list _ other hothers =>
      rw [equalsWithin]
      split
      · rename_i hplace
        exact answers_true (hplace ▸ rfl)
      split
      · rename_i hsize
        refine answers_false fun htree => hsize ?_
        simpa using congrArg List.length (Tree.list.inj htree)
      · rename_i hsize
        have hlength : (s.list place).toList.length = (s.list other).toList.length := by
          simpa using hsize
        have hitems := everyPair_answers hlength fun a ha b hb =>
          ih a (Array.mem_toList_iff.1 ha) (hothers b (Array.mem_toList_iff.1 hb))
        exact hitems.congr (Tree.list.injEq _ _).to_iff.symm
  | @dict depth place inserts hinserts hkeys hvalues ih =>
    cases hb with
    | scalar hb =>
      rw [equalsWithin_scalar (.inr hb), tree_scalar hb, sameKey_dict]
      exact answers_false (by simp [tree])
    | list => exact answers_false (by simp [tree])
    | @dict _ other _ hothersInserts hothersKeys hothers =>
      have hd : (s.dict place).Proper :=
        ⟨hkeys, hinserts ▸ Dict.keys_ofInserts_distinct inserts⟩
      have he : (s.dict other).Proper :=
        ⟨hothersKeys, hothersInserts ▸ Dict.keys_ofInserts_distinct _⟩
      -- Both dicts are proper, so being one map means having like entries.
      have htrees : s.tree (depth + 1) (.dict place) = s.tree (depth + 1) (.dict other) ↔ _ :=
        (Tree.dict.injEq _ _).to_iff.trans (Dict.unfolded_eq_iff hd he)
      rw [equalsWithin]
      split
      · rename_i hplace
        exact answers_true (hplace ▸ rfl)
      split
      · rename_i hsize
        exact answers_false fun htree => hsize (htrees.1 htree).1
      · rename_i hsize
        have hentries := everyEntry_answers fun entry hentry v hv =>
          ih entry.2 (List.mem_map_of_mem hentry) (hothers v hv)
        exact hentries.congr ((and_iff_right (not_not.1 hsize)).symm.trans htrees.symm)

/-- Below the containers of a plain value `a` there is nothing to unfold, so `deeper` trees are the
same. -/
theorem Plain.tree_eq (ha : s.Plain depth a) {deeper : Nat} (hle : depth ≤ deeper) :
    s.tree deeper a = s.tree depth a := by
  induction ha generalizing deeper with
  | scalar ha => rw [tree_scalar ha, tree_scalar ha]
  | @list depth place _ ih =>
    obtain ⟨deeper, rfl⟩ := Nat.exists_eq_add_one_of_ne_zero (Nat.ne_zero_of_lt hle)
    refine congrArg Tree.list (List.map_congr_left fun v hv => ?_)
    exact ih v (Array.mem_toList_iff.1 hv) (Nat.le_of_succ_le_succ hle)
  | @dict depth place _ _ _ _ ih =>
    obtain ⟨deeper, rfl⟩ := Nat.exists_eq_add_one_of_ne_zero (Nat.ne_zero_of_lt hle)
    refine congrArg Tree.dict (funext fun k => Option.map_congr fun v hv => ?_)
    obtain ⟨entry, hfind, rfl⟩ := Option.map_eq_some_iff.1 hv
    have hmem : entry.2 ∈ (s.dict place).values :=
      List.mem_map_of_mem (List.mem_of_find?_eq_some hfind)
    exact ih entry.2 hmem (Nat.le_of_succ_le_succ hle)

/-- The equality of two `Plain` values, without floats and methods, with dicts made by insertions
and with containers nested no deeper than `nestingLimit`, is decided: they are equal if and only if
they unfold to one `tree`, however deep they are unfolded. So equality is reflexive, symmetric and
transitive on them. -/
theorem equals_structural (s : Store) :
    (∀ a b depth, s.Plain nestingLimit a → s.Plain nestingLimit b → nestingLimit ≤ depth →
      Answers (s.equals a b) (s.tree depth a = s.tree depth b)) ∧
    (∀ a, s.Plain nestingLimit a → s.equals a a = .ok true) ∧
    (∀ a b, s.Plain nestingLimit a → s.Plain nestingLimit b → s.equals b a = s.equals a b) ∧
    ∀ a b c, s.Plain nestingLimit a → s.Plain nestingLimit b → s.Plain nestingLimit c →
      s.equals a b = .ok true → s.equals b c = .ok true → s.equals a c = .ok true := by
  have hanswers {a b : Value} (ha : s.Plain nestingLimit a) (hb : s.Plain nestingLimit b) :
      Answers (s.equals a b) (s.tree nestingLimit a = s.tree nestingLimit b) :=
    equalsWithin_answers ha hb
  refine ⟨fun a b depth ha hb hle => ?_, fun a ha => ?_, fun a b ha hb => ?_,
    fun a b c ha hb hc hab hbc => ?_⟩
  · rw [ha.tree_eq hle, hb.tree_eq hle]
    exact hanswers ha hb
  · exact (hanswers ha ha).iff.2 rfl
  · obtain ⟨answer, hab, hanswer⟩ := hanswers ha hb
    obtain ⟨other, hba, hother⟩ := hanswers hb ha
    rw [hab, hba, Except.ok.injEq, Bool.eq_iff_iff, hanswer, hother, eq_comm]
  · exact (hanswers ha hc).iff.2 (((hanswers ha hb).iff.1 hab).trans ((hanswers hb hc).iff.1 hbc))

/-- `[True, {1: 'a', 'b': x}]` and `[1, {'b': x, True: 'a'}]` unfold to one tree. -/
theorem equals_structural_shared :
    let s : Store := ⟨#[#[.bool true, .dict 0], #[.int 1, .dict 1], #[]],
      #[.ofInserts [(.int 1, .str "a"), (.str "b", .list 2)],
        .ofInserts [(.str "b", .list 2), (.bool true, .str "a")]]⟩
    s.Plain nestingLimit (.list 0) ∧ s.Plain nestingLimit (.list 1) ∧
      s.tree nestingLimit (.list 0) = s.tree nestingLimit (.list 1) := by
  intro s
  have hshared : s.Plain (97 + 1) (.list 2) := .list fun v hv => absurd hv (Array.not_mem_empty v)
  have hleftDict : s.Plain (98 + 1) (.dict 0) := by
    refine .dict _ rfl ?_ ?_
    · change ∀ k ∈ [Value.int 1, .str "b"], k.key?.isSome
      decide
    · change ∀ v ∈ [Value.str "a", .list 2], s.Plain 98 v
      exact List.forall_mem_cons.2 ⟨.scalar rfl, List.forall_mem_singleton.2 hshared⟩
  have hrightDict : s.Plain (98 + 1) (.dict 1) := by
    refine .dict _ rfl ?_ ?_
    · change ∀ k ∈ [Value.str "b", .bool true], k.key?.isSome
      decide
    · change ∀ v ∈ [Value.list 2, .str "a"], s.Plain 98 v
      exact List.forall_mem_cons.2 ⟨hshared, List.forall_mem_singleton.2 (.scalar rfl)⟩
  have hleft : s.Plain (99 + 1) (.list 0) := by
    refine .list fun v hv => ?_
    obtain rfl | rfl : v = .bool true ∨ v = .dict 0 := by simpa [s, Store.list] using hv
    exacts [.scalar rfl, hleftDict]
  have hright : s.Plain (99 + 1) (.list 1) := by
    refine .list fun v hv => ?_
    obtain rfl | rfl : v = .int 1 ∨ v = .dict 1 := by simpa [s, Store.list] using hv
    exacts [.scalar rfl, hrightDict]
  have hequal : s.equals (.list 0) (.list 1) = .ok true := rfl
  have hanswers := (equals_structural s).1 (.list 0) (.list 1) nestingLimit hleft hright le_rfl
  exact ⟨hleft, hright, hanswers.iff.1 hequal⟩

end Store

end Stepper
