import Stepper.Proofs.Execution.Arguments
import Stepper.Proofs.Execution.Heap

/-!
# Frames are orderly throughout a run

* `Frame.Orderly`: the frame lists every name that it has bound once, and that of a call has bound
  the parameters first, and then names of the function's own.
* `Machine.Orderly`: all frames of a state are so.
* `Program.invariant_orderly`: what is done in the run of a program of a source text keeps them so,
  because each function that is called there is one that the parser has collected the names of.
-/

namespace Stepper

/-- Every name that is bound in `g` is listed once, and no other. If `g` is the frame of a call of
`f`, the names are among `f.locals`, and the parameters come first. -/
structure Frame.Orderly (g : Frame) : Prop where
  once : ∀ name, g.names.count name = if (g.get? name).isSome then 1 else 0
  own : ∀ f, g.function? = some f → (∀ name ∈ g.names, name ∈ f.locals) ∧ f.params <+: g.names

/-- All frames of `m` are orderly. Those of calls are those of functions, and the program's own is
not. -/
structure Machine.Orderly (m : Machine) : Prop where
  globals : m.stack.globals.Orderly
  outermost : m.stack.globals.function? = none
  calls : ∀ g ∈ m.stack.calls, g.Orderly ∧ g.function?.isSome

namespace Frame

variable {g : Frame}

theorem once_iff_nodup :
    (∀ name, g.names.count name = if (g.get? name).isSome then 1 else 0) ↔ g.names.Nodup := by
  simp only [isSome_get?]
  rw [List.nodup_iff_count_le_one]
  refine forall_congr' fun name => ?_
  split
  · rename_i h
    have := List.one_le_count_iff.2 h
    omega
  · rename_i h
    rw [List.count_eq_zero_of_not_mem h]
    omega

theorem Orderly.nodup (h : g.Orderly) : g.names.Nodup :=
  once_iff_nodup.1 h.once

/-- The `line` does not matter. -/
theorem Orderly.line (h : g.Orderly) (line : Nat) : Orderly { g with line := line } :=
  ⟨h.once, h.own⟩

/-- A frame stays orderly when it binds a `name` that it owns. -/
theorem Orderly.set (h : g.Orderly) (name : String) (value : Value)
    (howns : g.function? ≠ none → g.owns name) : (g.set name value).Orderly := by
  refine ⟨once_iff_nodup.2 (nodup_bindIn h.nodup), fun f hf => ?_⟩
  obtain ⟨hlocals, hparams⟩ := h.own f hf
  refine ⟨fun n hn => ?_, hparams.trans prefix_bindIn⟩
  rcases mem_bindIn.1 hn with hn | rfl
  · exact hlocals n hn
  · have howned := howns (hf ▸ Option.some_ne_none f)
    rw [owns, show g.function? = some f from hf] at howned
    exact List.contains_iff_mem.1 howned

theorem orderly_ofCall {f : Function} (hf : f.Scoped) {args : List Value} {keywords : Keywords}
    {bindings : List (String × Value)} (h : f.bindArguments args keywords = .ok bindings) :
    (ofCall f bindings).Orderly := by
  have hnames : (ofCall f bindings).names = f.params := Function.names_bindArguments hf.params h
  refine ⟨once_iff_nodup.2 (hnames ▸ hf.params), ?_⟩
  rintro _ ⟨⟩
  rw [hnames]
  exact ⟨fun name hname => (hf.locals name).2 (.inl hname), List.prefix_rfl⟩

end Frame

namespace Machine.Orderly

variable {m : Machine}

theorem start : Orderly start :=
  ⟨⟨Frame.once_iff_nodup.2 (by decide), nofun⟩, rfl, nofun⟩

theorem bind (h : m.Orderly) (name : String) (value : Value) : (m.bind name value).Orderly := by
  rw [Machine.bind]
  split
  · rename_i howns
    obtain ⟨store, ⟨globals, calls⟩, output⟩ := m
    cases calls with
    | nil =>
      -- the program's own frame has no names to itself
      have hnone : globals.function? = none := h.outermost
      have howned : globals.owns name := howns
      rw [Frame.owns, hnone] at howned
      cases howned
    | cons top rest =>
      obtain ⟨⟨htop, hfunction⟩, hrest⟩ := List.forall_mem_cons.1 h.calls
      exact ⟨h.globals, h.outermost,
        List.forall_mem_cons.2 ⟨⟨htop.set name value fun _ => howns, hfunction⟩, hrest⟩⟩
  · have hglobals := h.globals.set name value fun hfunction => absurd h.outermost hfunction
    exact ⟨hglobals, h.outermost, h.calls⟩

theorem enterLine (h : m.Orderly) (line : Nat) : (m.enterLine line).Orderly := by
  obtain ⟨store, ⟨globals, calls⟩, output⟩ := m
  cases calls with
  | nil => exact ⟨h.globals.line line, h.outermost, h.calls⟩
  | cons top rest =>
    obtain ⟨⟨htop, hfunction⟩, hrest⟩ := List.forall_mem_cons.1 h.calls
    exact ⟨h.globals, h.outermost, List.forall_mem_cons.2 ⟨⟨htop.line line, hfunction⟩, hrest⟩⟩

theorem call (h : m.Orderly) {f : Function} (hf : f.Scoped) {args : List Value}
    {keywords : Keywords} {bindings : List (String × Value)}
    (hbindings : f.bindArguments args keywords = .ok bindings) :
    (m.push (.ofCall f bindings)).Orderly :=
  ⟨h.globals, h.outermost,
    List.forall_mem_cons.2 ⟨⟨Frame.orderly_ofCall hf hbindings, rfl⟩, h.calls⟩⟩

theorem pop (h : m.Orderly) : m.pop.Orderly :=
  ⟨h.globals, h.outermost, fun g hg => h.calls g (List.mem_of_mem_tail hg)⟩

end Machine.Orderly

namespace Program

variable {source : String} {p : Program}

/-- All that is done in the run of the program `p` of a source text keeps the frames orderly. That
the values are `WellFormed` counts as well, as they tell which functions can be called. -/
theorem invariant_orderly (h : ofSource source = .ok p) :
    Machine.Invariant (DefinedIn p.body) fun m => m.WellFormed (DefinedIn p.body) ∧ m.Orderly where
  wellFormed hm := hm.1
  store hm hs := ⟨Machine.invariant_wellFormed.store hm.1 hs, ⟨hm.2.1, hm.2.2, hm.2.3⟩⟩
  output output hm := ⟨hm.1.output output, ⟨hm.2.1, hm.2.2, hm.2.3⟩⟩
  enterLine line hm := ⟨hm.1.enterLine line, hm.2.enterLine line⟩
  bind name v hm hv := ⟨hm.1.bind name hv, hm.2.bind name v⟩
  call hm hf hbindings hframe := by
    obtain ⟨around, hf⟩ := hf
    exact ⟨hm.1.push hframe, hm.2.call (ofSource_scoped h hf) hbindings⟩
  pop hm := ⟨hm.1.pop, hm.2.pop⟩

/-- Frames are orderly at every pause of a run of `p` and at its end. -/
theorem run_orderly (h : ofSource source = .ok p) (limit : Nat) :
    (p.run limit).Always (·.machine.Orderly) fun r => r.2.Orderly :=
  (p.run_invariant limit (invariant_orderly h) ⟨Machine.wellFormed_start, .start⟩).mono
    (fun _ hpause => hpause.2) fun _ hend => hend.2

end Program

open Classical in
/-- Does `alarm` before an act if some frame is not orderly, and nothing if all are. -/
noncomputable def Watch.onDisorder (alarm : Watch) : Watch := fun held m =>
  if m.Orderly then .ended (.ok (), m) else alarm held m

/-- Frames are orderly before every act of a run, so `onDisorder` never does anything. -/
theorem Program.runWatched_onDisorder {source : String} {p : Program} (h : ofSource source = .ok p)
    (alarm : Watch) (limit : Nat) : p.runWatched alarm.onDisorder limit = p.run limit :=
  p.runWatched_eq_run_of_quietOn limit ⟨invariant_orderly h, fun _ _ _ hm => if_pos hm.2⟩
    ⟨Machine.wellFormed_start, .start⟩

end Stepper
