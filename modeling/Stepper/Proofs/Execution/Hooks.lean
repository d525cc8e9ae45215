import Stepper.Proofs.Execution.History

/-!
# Hooks cannot change what a program does

A hook may keep any state, trim the window of the output at any pause and mix its answers at will.

* `Program.consultation?`: the pause at which a hook is asked for the `i`-th time, and its reply.
  The limit on the turns of loops does not show in it (`Program.consultation?_eq`).
* `Program.Ends`: a run of a program under a hook ends. A run that is not cut off is the same with
  every larger limit, so it ends in one way only (`Program.Ends.unique`).
* `Program.hooks_agree`: two hooks see the same until one of them aborts; if neither does, both runs
  end alike or neither ends; and a hook that aborts is not asked again.
-/

namespace Stepper

/-- The hook that only looks on: it always answers `step`. -/
def watching : Pause → StateM Unit Reply :=
  fun _ => pure ⟨.step, none⟩

theorem watching_ne_abort {pause : Pause} {s : Unit} : (watching pause s).1.answer ≠ .abort :=
  nofun

namespace Program

variable (p : Program) (hook : Pause → StateM σ Reply) (s : σ)

/-- The pause at which the hook is asked for the `i`-th time, counted from zero, and its reply. -/
def consultation? (i : Nat) : Option (Pause × Reply) :=
  ((p.run (i + 1)).history hook s)[i]?

/-- The hook answers `abort` when it is asked for the `i`-th time. -/
def AbortsAt (i : Nat) : Prop :=
  ∃ c, p.consultation? hook s i = some c ∧ c.2.answer = .abort

/-- The run ends with `outcome` in the state `m`. A run that was cut off (`unfinished`) has not
ended. -/
def Ends (outcome : Outcome) (m : Machine) : Prop :=
  outcome ≠ .unfinished ∧ ∃ limit t, (p.run limit).drive hook s = ((outcome, m), t)

variable {p hook s}

/-- The history of a run with `limit` turns shows consultation `i`, for `i` below `limit`. -/
theorem consultation?_eq {i limit : Nat} (h : i < limit) :
    p.consultation? hook s i = ((p.run limit).history hook s)[i]? :=
  (p.run_extends (show i + 1 ≤ limit by omega) (Nat.le_refl _)).history_getElem? s (by omega)

/-- What a run with `limit` turns, cut off or not, has asked is asked. -/
theorem consultation?_of_history {i limit : Nat} {c : Pause × Reply}
    (h : ((p.run limit).history hook s)[i]? = some c) : p.consultation? hook s i = some c := by
  rw [consultation?_eq (Nat.lt_of_lt_of_le (Nat.lt_succ_self i) (Nat.le_max_right limit (i + 1)))]
  have hpre : (p.run limit).history hook s <+: (p.run (max limit (i + 1))).history hook s :=
    (p.run_extends (Nat.le_max_left limit (i + 1)) (Nat.zero_le _)).prefix_history s
  obtain ⟨rest, hrest⟩ := hpre
  rw [← hrest, List.getElem?_append_left (List.getElem?_eq_some_iff.1 h).1, h]

theorem drive_eq_of_le {limit limit' : Nat} (h : limit ≤ limit')
    (hcut : ((p.run limit).drive hook s).1.1 ≠ .unfinished) :
    (p.run limit').drive hook s = (p.run limit).drive hook s :=
  (p.run_extends h (Nat.zero_le _)).drive_eq hcut

/-- A run that is not cut off at `limit` asks nothing more with more turns. -/
theorem consultation?_of_not_cut {limit : Nat}
    (hcut : ((p.run limit).drive hook s).1.1 ≠ .unfinished) (i : Nat) :
    p.consultation? hook s i = ((p.run limit).history hook s)[i]? := by
  rw [consultation?_eq (Nat.lt_of_lt_of_le (Nat.lt_succ_self i) (Nat.le_max_right limit (i + 1))),
    (p.run_extends (Nat.le_max_left limit (i + 1)) (Nat.zero_le _)).history_eq hcut]

/-- A run ends in one way only: `outcome` and `m` are determined. -/
theorem Ends.unique {outcome outcome' : Outcome} {m m' : Machine} (h : p.Ends hook s outcome m)
    (h' : p.Ends hook s outcome' m') : outcome = outcome' ∧ m = m' := by
  obtain ⟨hcut, limit, t, hrun⟩ := h
  obtain ⟨hcut', limit', t', hrun'⟩ := h'
  have e : (p.run (max limit limit')).drive hook s = (p.run limit).drive hook s :=
    drive_eq_of_le (Nat.le_max_left limit limit') (by rwa [hrun])
  have e' : (p.run (max limit limit')).drive hook s = (p.run limit').drive hook s :=
    drive_eq_of_le (Nat.le_max_right limit limit') (by rwa [hrun'])
  rw [e, hrun, hrun'] at e'
  cases e'
  exact ⟨rfl, rfl⟩

/-! ## Aborts -/

/-- A hook that aborts at `i` ends the run as `aborted`, and is not asked again. -/
theorem AbortsAt.ends {i : Nat} (h : p.AbortsAt hook s i) :
    (∃ m, p.Ends hook s .aborted m) ∧ ∀ j > i, p.consultation? hook s j = none := by
  obtain ⟨c, hc, habort⟩ := h
  obtain ⟨hlength, hend⟩ := (p.run_obeys (i + 1)).length_of_abort hc habort
  have hcut : ((p.run (i + 1)).drive hook s).1.1 ≠ .unfinished := by rw [hend]; nofun
  refine ⟨⟨_, nofun, i + 1, _, Prod.ext (Prod.ext hend rfl) rfl⟩, fun j hj => ?_⟩
  rw [consultation?_of_not_cut hcut, List.getElem?_eq_none_iff, hlength]
  omega

/-- A hook that never answers `abort` aborts nowhere. -/
theorem not_abortsAt (h : ∀ pause t, (hook pause t).1.answer ≠ .abort) (i : Nat) :
    ¬ p.AbortsAt hook s i := by
  rintro ⟨c, hc, habort⟩
  obtain ⟨t, ht⟩ := Execution.exists_of_mem_history (List.mem_of_getElem? hc)
  exact h c.1 t (ht ▸ habort)

theorem ends_aborted_iff : (∃ m, p.Ends hook s .aborted m) ↔
    ∃ i, p.AbortsAt hook s i ∧ p.consultation? hook s (i + 1) = none := by
  constructor
  · rintro ⟨m, -, limit, t, hrun⟩
    have habort : ((p.run limit).drive hook s).1.1 = .aborted := by rw [hrun]
    obtain ⟨i, c, hc, habort⟩ := (p.run_obeys limit).exists_abort habort
    have hi : p.AbortsAt hook s i := ⟨c, consultation?_of_history hc, habort⟩
    exact ⟨i, hi, hi.ends.2 _ (Nat.lt_succ_self i)⟩
  · rintro ⟨i, hi, -⟩
    exact hi.ends.1

/-! ## Two hooks -/

variable {hook' : Pause → StateM τ Reply} {t : τ}

/-- The outputs `o` and `o'` have one transcript. -/
def SameTranscript (o o' : Output) : Prop :=
  o.transcript = o'.transcript

theorem SameTranscript.trimmed {o o' : Output} (h : SameTranscript o o') (r r' : Reply) :
    SameTranscript (r.trimmed o) (r'.trimmed o') := by
  rw [SameTranscript, r.trimmed_transcript, r'.trimmed_transcript, h]

/-- The program `p` goes in step with itself, whatever becomes of the windows. -/
theorem run_inStep_sameTranscript (limit : Nat) :
    (p.run limit).InStep SameTranscript (SameResult SameTranscript) (p.run limit) :=
  p.run_inStep (O := SameTranscript) (fun _ _ text h => congrArg (· ++ text) h) rfl limit

theorem not_abort_of_forall {i limit : Nat} (h : ∀ j < i, ¬ p.AbortsAt hook s j) :
    ∀ j < i, ∀ c, ((p.run limit).history hook s)[j]? = some c → c.2.answer ≠ .abort :=
  fun j hj c hc habort => h j hj ⟨c, consultation?_of_history hc, habort⟩

/-- The two hooks see the same at pause `i` if neither of them has aborted before. -/
theorem observation_congr {i : Nat} (h : ∀ j < i, ¬ p.AbortsAt hook s j)
    (h' : ∀ j < i, ¬ p.AbortsAt hook' t j) :
    (p.consultation? hook s i).map (·.1.observation) =
      (p.consultation? hook' t i).map (·.1.observation) :=
  (run_inStep_sameTranscript (i + 1)).history_congr (fun _ _ => id)
    (fun _ _ r r' ho => ho.trimmed r r') (not_abort_of_forall h) (not_abort_of_forall h')

theorem neverAborts_of_forall {limit : Nat} (h : ∀ j, ¬ p.AbortsAt hook s j) :
    (p.run limit).NeverAborts hook s := by
  intro c hc
  obtain ⟨j, hj⟩ := List.mem_iff_getElem?.1 hc
  exact not_abort_of_forall (fun j _ => h j) j (Nat.lt_succ_self j) c hj

/-- If neither hook aborts, a run ends under `hook'` as it does under `hook`. -/
theorem Ends.congr {outcome : Outcome} {m : Machine} (h : p.Ends hook s outcome m)
    (hs : ∀ j, ¬ p.AbortsAt hook s j) (ht : ∀ j, ¬ p.AbortsAt hook' t j) :
    ∃ m', p.Ends hook' t outcome m' ∧ m.Alike SameTranscript m' := by
  obtain ⟨hcut, limit, u, hrun⟩ := h
  have hsame := (run_inStep_sameTranscript limit).drive_congr (fun _ _ r r' ho => ho.trimmed r r')
    (neverAborts_of_forall hs) (neverAborts_of_forall ht)
  rw [hrun] at hsame
  exact ⟨((p.run limit).drive hook' t).1.2,
    ⟨hcut, limit, _, Prod.ext (Prod.ext hsame.1.symm rfl) rfl⟩, hsame.2⟩

/-- Hooks cannot change what `p` does: two hooks see the same (`Pause.observation`) up to and
including the first pause at which one of them aborts; if neither aborts and one run ends, the other
ends with the same `outcome`, globals, store and transcript; a run ends as `aborted` exactly if the
hook's last answer was `abort`; and a hook that has aborted is not asked again. -/
theorem hooks_agree (p : Program) (hook : Pause → StateM σ Reply) (s : σ)
    (hook' : Pause → StateM τ Reply) (t : τ) :
    (∀ i, (∀ j < i, ¬ p.AbortsAt hook s j ∧ ¬ p.AbortsAt hook' t j) →
      (p.consultation? hook s i).map (·.1.observation) =
        (p.consultation? hook' t i).map (·.1.observation)) ∧
    ((∀ j, ¬ p.AbortsAt hook s j ∧ ¬ p.AbortsAt hook' t j) →
      ∀ outcome m, p.Ends hook s outcome m → ∃ m', p.Ends hook' t outcome m' ∧
        m'.stack.globals = m.stack.globals ∧ m'.store = m.store ∧
        m'.output.transcript = m.output.transcript) ∧
    ((∃ m, p.Ends hook s .aborted m) ↔
      ∃ i, p.AbortsAt hook s i ∧ p.consultation? hook s (i + 1) = none) ∧
    (∀ i, p.AbortsAt hook s i → ∀ j > i, p.consultation? hook s j = none) := by
  refine ⟨fun i h => ?_, fun h outcome m hend => ?_, ends_aborted_iff, fun i h => h.ends.2⟩
  · exact observation_congr (fun j hj => (h j hj).1) (fun j hj => (h j hj).2)
  · obtain ⟨m', hend', hm⟩ := hend.congr (fun j => (h j).1) (fun j => (h j).2)
    exact ⟨m', hend', by rw [hm.stack], hm.store.symm, hm.output.symm⟩

/-- On `print('ab')`, a hook that looks on, and one that counts, answers otherwise and keeps nothing
of the window. -/
theorem hooks_agree_print :
    let p : Program := ⟨[.expr (.call (.name "print" ⟨1, 1⟩) [.str "ab" ⟨1, 7⟩] [] ⟨1, 6⟩) ⟨1, 1⟩],
      ["print('ab')"]⟩
    let forget : Pause → StateM Nat Reply := fun _ n => (⟨.goOn, some 0⟩, n + 1)
    ∃ m m', p.Ends watching () .completed m ∧ p.Ends forget 0 .completed m' ∧
      m.output.transcript = "ab\n" ∧ m'.output.transcript = "ab\n" := by
  intro p forget
  have hend : p.Ends watching () .completed ((p.run 2).drive watching ()).1.2 :=
    ⟨nofun, 2, (), rfl⟩
  have habort : ∀ j, ¬ p.AbortsAt watching () j ∧ ¬ p.AbortsAt forget 0 j := fun j =>
    ⟨not_abortsAt (fun _ _ => watching_ne_abort) j, not_abortsAt (fun _ _ => by simp [forget]) j⟩
  obtain ⟨m', hend', -, -, htranscript⟩ := (hooks_agree p watching () forget 0).2.1 habort _ _ hend
  exact ⟨_, m', hend, hend', rfl, htranscript⟩

end Program

end Stepper
