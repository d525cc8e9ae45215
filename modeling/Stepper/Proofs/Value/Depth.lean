import Mathlib.Data.List.Forall2
import Stepper.Value.Text

/-!
# How deep a value can be written

* `Store.parts`: what a value holds: the items of a list, and the keys and the values of a dict.
* `Store.Path`: a way from a value to a part of it, a part of that, and so on.
* `Store.exists_reprWithin_iff`: a value is written with some number of levels if no path from it
  has as many steps, also if it contains itself.
* `Store.reprWithin_of_le`: the number of levels only decides whether there is a text, and not
  which.
* `Store.repr_eq_error_iff`: so a value is too deep if a path from it has more steps than the limit.
-/

namespace Stepper

/-! ## Lists of results -/

section Results

variable {f g : α → Except ε β} {as : List α} {bs : List β}

theorem mapM_eq_ok_iff : as.mapM f = .ok bs ↔ List.Forall₂ (fun a b => f a = .ok b) as bs := by
  induction as generalizing bs with
  | nil => cases bs <;> simp [pure, Except.pure]
  | cons a as ih =>
    rw [List.mapM_cons]
    cases hfirst : f a with
    | error e => cases bs <;> simp [bind, Except.bind, hfirst]
    | ok b =>
      cases hrest : as.mapM f <;> cases bs <;>
        simp [bind, Except.bind, pure, Except.pure, ← ih, hfirst, hrest]

theorem exists_mapM_iff : (∃ bs, as.mapM f = .ok bs) ↔ ∀ a ∈ as, ∃ b, f a = .ok b := by
  simp only [mapM_eq_ok_iff]
  induction as with
  | nil => simp
  | cons a as ih =>
    rw [List.forall_mem_cons, ← ih]
    constructor
    · rintro ⟨_, _ | ⟨hb, hbs⟩⟩
      exact ⟨⟨_, hb⟩, _, hbs⟩
    · rintro ⟨⟨b, hb⟩, bs, hbs⟩
      exact ⟨_, .cons hb hbs⟩

theorem mapM_congr (h : ∀ a ∈ as, f a = g a) : as.mapM f = as.mapM g := by
  induction as with
  | nil => rfl
  | cons a as ih =>
    rw [List.forall_mem_cons] at h
    rw [List.mapM_cons, List.mapM_cons, h.1, ih h.2]

/-- What `f` does with a result of `x` can be done if there is one. -/
theorem exists_map_iff {x : Except ε α} (f : α → β) :
    (∃ b, (do return f (← x)) = (.ok b : Except ε β)) ↔ ∃ a, x = .ok a := by
  cases x with
  | error e => exact iff_of_false nofun nofun
  | ok a => exact iff_of_true ⟨_, rfl⟩ ⟨_, rfl⟩

end Results

namespace Store

/-! ## Paths -/

/-- What a value holds in `s`, without what is in that: the items of a list, the keys and values of
a dict. -/
def parts (s : Store) : Value → List Value
  | .list place => (s.list place).toList
  | .dict place => (s.dict place).keys ++ (s.dict place).values
  | _ => []

/-- A path with some number of steps in `s`, each from a value to one of its `parts`. -/
inductive Path (s : Store) : Nat → Value → Value → Prop
  | here (v : Value) : Path s 0 v v
  | step {n : Nat} {v part w : Value} : part ∈ s.parts v → Path s n part w → Path s (n + 1) v w

variable {s : Store} {u v w : Value} {m n : Nat}

theorem exists_path_succ :
    (∃ w, s.Path (n + 1) v w) ↔ ∃ part ∈ s.parts v, ∃ w, s.Path n part w := by
  constructor
  · rintro ⟨w, _ | ⟨hpart, h⟩⟩
    exact ⟨_, hpart, w, h⟩
  · rintro ⟨part, hpart, w, h⟩
    exact ⟨w, .step hpart h⟩

theorem Path.trans (h : s.Path m u v) (h' : s.Path n v w) : s.Path (n + m) u w := by
  induction h with
  | here => exact h'
  | step hpart _ ih => exact .step hpart (ih h')

/-- A path with `n` steps goes through a value after every smaller number `m` of steps. -/
theorem Path.exists_of_le (h : s.Path n v w) (hm : m ≤ n) : ∃ u, s.Path m v u := by
  induction h generalizing m with
  | here v => exact ⟨v, Nat.le_zero.1 hm ▸ .here v⟩
  | @step n v part w hpart h ih =>
    cases m with
    | zero => exact ⟨v, .here v⟩
    | succ m =>
      obtain ⟨u, hu⟩ := ih (Nat.le_of_succ_le_succ hm)
      exact ⟨u, .step hpart hu⟩

/-! ## Texts -/

/-- A value `v` is written with `n + 1` levels if its parts can be written with `n`. -/
theorem exists_reprWithin_succ :
    (∃ text, s.reprWithin (n + 1) v = .ok text) ↔
      ∀ part ∈ s.parts v, ∃ text, s.reprWithin n part = .ok text := by
  cases v with
  | list place => exact (exists_map_iff _).trans exists_mapM_iff
  | dict place =>
    refine (exists_map_iff _).trans (exists_mapM_iff.trans ?_)
    simp only [parts, Dict.keys, Dict.values, List.mem_append, List.mem_map, or_imp, forall_and,
      forall_exists_index, and_imp, forall_apply_eq_imp_iff₂]
    rw [← forall₂_and]
    refine forall₂_congr fun entry _ => ?_
    cases s.reprWithin n entry.1 with
    | error e => exact iff_of_false nofun fun h => nomatch h.1
    | ok text => exact (exists_map_iff (text ++ ": " ++ ·)).trans (and_iff_right ⟨_, rfl⟩).symm
  | _ => exact iff_of_true ⟨_, rfl⟩ nofun

/-- With more levels, `n` for `m`, a value `v` is written in the same way, if its parts are. -/
theorem reprWithin_congr (h : ∀ part ∈ s.parts v, s.reprWithin m part = s.reprWithin n part) :
    s.reprWithin (m + 1) v = s.reprWithin (n + 1) v := by
  cases v with
  | list place =>
    rw [reprWithin, reprWithin]
    exact congrArg (· >>= _) (mapM_congr h)
  | dict place =>
    rw [reprWithin, reprWithin]
    refine congrArg (· >>= _) (mapM_congr fun (key, value) hentry => ?_)
    have hkey : s.reprWithin m key = s.reprWithin n key :=
      h key (List.mem_append_left _ (List.mem_map_of_mem hentry))
    have hvalue : s.reprWithin m value = s.reprWithin n value :=
      h value (List.mem_append_right _ (List.mem_map_of_mem hentry))
    dsimp only
    rw [hkey, hvalue]
  | _ => rfl

/-- A value `v` is written with `n` levels if no path from it has `n` steps, by induction on `n`. -/
theorem exists_reprWithin_iff :
    (∃ text, s.reprWithin n v = .ok text) ↔ ¬ ∃ w, s.Path n v w := by
  induction n generalizing v with
  | zero => exact iff_of_false nofun fun h => h ⟨v, .here v⟩
  | succ n ih =>
    rw [exists_reprWithin_succ, exists_path_succ]
    push Not
    exact forall₂_congr fun part _ => ih.trans not_exists

/-- A `text` that is written with `m` levels is written with every larger number `n` of them. -/
theorem reprWithin_of_le {text : String} (h : s.reprWithin m v = .ok text) (hmn : m ≤ n) :
    s.reprWithin n v = .ok text := by
  induction m generalizing n v text with
  | zero => cases h
  | succ m ih =>
    obtain ⟨n, rfl⟩ := Nat.exists_eq_add_one_of_ne_zero (Nat.ne_zero_of_lt hmn)
    rw [← h]
    refine reprWithin_congr fun part hpart => ?_
    obtain ⟨partText, hpartText⟩ := exists_reprWithin_succ.1 ⟨text, h⟩ part hpart
    rw [hpartText, ih hpartText (Nat.le_of_succ_le_succ hmn)]

/-- A path from `v` has more steps than `nestingLimit`. -/
def HasLongPath (s : Store) (v : Value) : Prop :=
  ∃ n w, nestingLimit < n ∧ s.Path n v w

theorem hasLongPath_iff : s.HasLongPath v ↔ ∃ w, s.Path (nestingLimit + 1) v w := by
  constructor
  · rintro ⟨n, w, hn, h⟩
    exact h.exists_of_le hn
  · rintro ⟨w, h⟩
    exact ⟨_, w, Nat.lt_succ_self _, h⟩

theorem exists_repr_iff : (∃ text, s.repr v = .ok text) ↔ ¬ s.HasLongPath v := by
  rw [hasLongPath_iff]
  exact exists_reprWithin_iff

/-- A value `v` cannot be written if, and only if, a path from it has more steps than the limit. -/
theorem repr_eq_error_iff : s.repr v = .error {} ↔ s.HasLongPath v := by
  rw [← not_iff_not, ← exists_repr_iff]
  cases s.repr v with
  | error e => exact iff_of_false (not_not.2 rfl) nofun
  | ok text => exact iff_of_true nofun ⟨text, rfl⟩

/-- A value `v` that contains itself, after `n + 1` steps, is too deep. -/
theorem Path.hasLongPath (h : s.Path (n + 1) v v) : s.HasLongPath v := by
  have hround (rounds : Nat) : s.Path (rounds * (n + 1)) v v := by
    induction rounds with
    | zero =>
      rw [Nat.zero_mul]
      exact .here v
    | succ rounds ih =>
      rw [Nat.succ_mul]
      exact h.trans ih
  have hmany : nestingLimit + 1 ≤ (nestingLimit + 1) * (n + 1) :=
    Nat.le_mul_of_pos_right _ n.succ_pos
  exact ⟨_, v, hmany, hround (nestingLimit + 1)⟩

end Store

end Stepper
