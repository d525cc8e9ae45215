import Mathlib.Data.ENat.Lattice
import Mathlib.Data.Set.Card
import Stepper.Proofs.Execution.Hooks

/-!
# The boundaries of a program

* `Program.boundary?`: the pause that a program makes for the `i`-th time when it is left alone.
* `Program.boundaryCount`: how many pauses it makes, perhaps without end.
* `Execution.pauses`: the pauses of an execution that is left alone. Those of a run in which loops
  make a limited number of turns are boundaries of the program, as far as that number
  (`Program.boundary?_eq`).
-/

namespace Stepper

/-- The pauses of `x` if nothing aborts it. -/
def Execution.pauses (x : Execution α) : List Pause :=
  (x.history watching ()).map (·.1)

namespace Program

variable {p : Program}

/-- The pause `i` of `p`, counted from zero, if nothing aborts it. -/
def boundary? (p : Program) (i : Nat) : Option Pause :=
  (p.consultation? watching () i).map (·.1)

/-- How many pauses `p` makes if nothing aborts it; `⊤` if it goes on for ever. -/
noncomputable def boundaryCount (p : Program) : ℕ∞ :=
  {i | (p.boundary? i).isSome}.encard

theorem boundary?_eq {i limit : Nat} (h : i < limit) :
    p.boundary? i = (p.run limit).pauses[i]? := by
  rw [boundary?, consultation?_eq h, Execution.pauses, List.getElem?_map]

theorem isSome_boundary? {i limit : Nat} (h : i < limit) :
    (p.boundary? i).isSome ↔ i < (p.run limit).pauses.length := by
  rw [boundary?_eq h, Option.isSome_iff_ne_none, Ne, List.getElem?_eq_none_iff, Nat.not_le]

/-- There are no gaps: with a pause `j` there is each pause `i` before it. -/
theorem isSome_boundary?_of_le {i j : Nat} (h : i ≤ j) (hj : (p.boundary? j).isSome) :
    (p.boundary? i).isSome := by
  rw [isSome_boundary? (Nat.lt_succ_self j)] at hj
  rw [isSome_boundary? (Nat.lt_succ_of_le h)]
  omega

theorem encard_lt (n : Nat) : {i | i < n}.encard = n := by
  have h : {i | i < n} = (Finset.range n : Set ℕ) := by ext i; simp
  rw [h, Set.encard_coe_eq_coe_finsetCard, Finset.card_range]

/-- A run with `limit` turns shows how many pauses `p` makes, up to any `k` within the limit. -/
theorem min_boundaryCount {k limit : Nat} (h : k ≤ limit) :
    min p.boundaryCount k = (min (p.run limit).pauses.length k : Nat) := by
  by_cases hlength : (p.run limit).pauses.length < k
  · -- The program has ended within the limit, so it makes these pauses and no others.
    have hcount : {i | (p.boundary? i).isSome} = {i | i < (p.run limit).pauses.length} := by
      ext i
      refine ⟨fun hi => Nat.lt_of_not_le fun hle => ?_, fun hi => ?_⟩
      · have hend := isSome_boundary?_of_le hle hi
        rw [isSome_boundary? (Nat.lt_of_lt_of_le hlength h)] at hend
        omega
      · exact (isSome_boundary? (Nat.lt_of_lt_of_le (Nat.lt_trans hi hlength) h)).2 hi
    rw [boundaryCount, hcount, encard_lt, Nat.min_eq_left (Nat.le_of_lt hlength), min_eq_left]
    exact_mod_cast Nat.le_of_lt hlength
  · -- The program pauses at least `k` times within the limit.
    have hcount : (k : ℕ∞) ≤ p.boundaryCount := by
      rw [← encard_lt k]
      exact Set.encard_le_encard fun i (hi : i < k) =>
        (isSome_boundary? (Nat.lt_of_lt_of_le hi h)).2 (by omega)
    rw [min_eq_right hcount, Nat.min_eq_right (Nat.le_of_not_lt hlength)]

/-- A run that makes fewer pauses than `limit` makes all pauses of `p`. -/
theorem boundaryCount_eq {limit : Nat} (h : (p.run limit).pauses.length < limit) :
    p.boundaryCount = (p.run limit).pauses.length := by
  have hmin := min_boundaryCount (p := p) (Nat.le_refl limit)
  rw [Nat.min_eq_left (Nat.le_of_lt h)] at hmin
  rcases min_choice p.boundaryCount (limit : ℕ∞) with hcount | hlimit
  · rw [← hmin, hcount]
  · rw [hlimit] at hmin
    have : limit = (p.run limit).pauses.length := by exact_mod_cast hmin
    omega

/-- If `p` makes at most `k` pauses, it makes no more in a run with `limit` turns. -/
theorem length_pauses_le {k limit : Nat} (h : k < limit) (hcount : p.boundaryCount ≤ k) :
    (p.run limit).pauses.length ≤ k := by
  have hmin := min_boundaryCount (p := p) (Nat.succ_le_of_lt h)
  have hle : ((min (p.run limit).pauses.length (k + 1) : Nat) : ℕ∞) ≤ k := by
    rw [← hmin]; exact (min_le_left _ _).trans hcount
  have : min (p.run limit).pauses.length (k + 1) ≤ k := by exact_mod_cast hle
  omega

/-- A run that makes fewer pauses than `limit` ends as `p` does. -/
theorem drive_of_ends {outcome : Outcome} {m : Machine} (h : p.Ends watching () outcome m)
    {limit : Nat} (hlimit : (p.run limit).pauses.length < limit) :
    (p.run limit).drive watching () = ((outcome, m), ()) := by
  rcases hrun : (p.run limit).drive watching () with ⟨⟨outcome', m'⟩, t⟩
  have hcut : outcome' ≠ .unfinished := by
    rintro rfl
    have hcut : ((p.run limit).drive watching ()).1.1 = .unfinished := by rw [hrun]
    have := (p.run_extends (Nat.le_refl limit) (Nat.le_refl limit)).le_length_of_cut hcut
    rw [Execution.pauses, List.length_map] at hlimit
    omega
  obtain ⟨rfl, rfl⟩ := Ends.unique ⟨hcut, limit, t, hrun⟩ h
  rfl

end Program

end Stepper
