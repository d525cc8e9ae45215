import Stepper.Proofs.Execution.Lines
import Stepper.Proofs.Session.Telling
import Stepper.Proofs.Stmt.Lines

/-!
# Reported lines are lines of the program

* `Message.ShownIn`: the lines that a message reports are lines of a program with something on them.
* `Session.drive_shown`, `Session.execute_shown`: so it is with what a session tells of its program.
* `Program.locations_true`: the places of tokens, the lines of statements, and the lines that runs
  and sessions report.
-/

namespace Stepper

/-- The lines in a message, that of a `step` and those of a traceback, are lines of `p` with
something on them. -/
def Message.ShownIn (p : Program) : Message → Prop
  | .step e => p.ShowsLine e.line
  | .error ⟨.exception, trace, _⟩ =>
    ∃ t : Traceback, trace = t.render p ∧ ∀ entry ∈ t.entries, p.ShowsLine entry.line
  | _ => True

/-- The lines of all entries of the traceback with which a run ends (`.raised e`) are lines of `p`
with something on them. -/
def Outcome.ShownIn (p : Program) (outcome : Outcome) : Prop :=
  ∀ e, outcome = .raised e → ∀ entry ∈ (Traceback.ofException e).entries, p.ShowsLine entry.line

namespace Session

variable {p : Program}

theorem pauseAt_shown {pause : Pause} (h : p.ShowsLine pause.line) (s : Session) :
    Tells (pauseAt Wire.endpoint pause) s fun _ _ messages => ∀ m ∈ messages, m.ShownIn p := by
  have hstep : ∀ m ∈ [Message.step (eventOf s.limits pause)], m.ShownIn p :=
    List.forall_mem_singleton.2 h
  unfold pauseAt
  refine .bind (.of_run (fun _ => rfl) ?_)
  dsimp only [List.nil_append]
  split
  · exact .bind (.send (.pure (List.forall_mem_singleton.2 trivial)) fun _ => nofun)
  · refine .bind (.setPhase (.bind (.send (.bind (.modify (.bind ?_))) fun _ => nofun)))
    rw [onChannel_readCommand]
    refine .bind (.readLine (fun line => .pure ?_) fun _ => hstep)
    dsimp only
    split
    · exact .bind (.setPhase (.pure hstep))
    · exact .pure hstep

/-- An execution `x` that pauses at lines of `p`, answered by a session, tells nothing but messages
with `ShownIn`. -/
theorem drive_shown {x : Execution α} {Q : α → Prop} (hx : x.Always (p.ShowsLine ·.line) Q)
    (s : Session) :
    Tells (x.drive (pauseAt Wire.endpoint)) s fun r _ messages =>
      (∀ m ∈ messages, m.ShownIn p) ∧ ∀ a, r = .ok a → Q a := by
  induction hx generalizing s with
  | ended ha => exact .pure ⟨nofun, fun _ hb => Except.ok.inj hb ▸ ha⟩
  | paused hline _ ih =>
    refine .bind ((pauseAt_shown hline s).mono fun r s₁ messages hpause => ?_)
    cases r with
    | error e => exact ⟨hpause, nofun⟩
    | ok reply =>
      refine (ih reply s₁).mono fun r s' messages' ⟨hrest, hresult⟩ => ⟨?_, hresult⟩
      exact List.forall_mem_append.2 ⟨hpause, hrest⟩

theorem report_shown {outcome : Outcome} (h : outcome.ShownIn p) (m : Machine) (s : Session) :
    Tells (report Wire.endpoint p outcome m) s fun _ _ messages => ∀ m ∈ messages, m.ShownIn p := by
  unfold report
  split
  · exact .bind (.send (.setPhase (List.forall_mem_singleton.2 trivial)) fun _ => nofun)
  · rename_i e
    exact .send (List.forall_mem_singleton.2 ⟨_, rfl, h e rfl⟩) fun _ => nofun
  · exact .pure nofun
  · exact .pure nofun

/-- Running `source`, a session tells nothing but messages that are `ShownIn p`. -/
theorem execute_shown {source : String} (h : Program.ofSource source = .ok p)
    (hrun : ∀ limit, (p.run limit).Always (p.ShowsLine ·.line) (·.1.ShownIn p)) (s : Session) :
    Tells (execute Wire.endpoint source) s fun _ _ messages => ∀ m ∈ messages, m.ShownIn p := by
  unfold execute
  refine .bind (.setPhase ?_)
  rw [h]
  refine .bind (.of_run (fun _ => rfl) ?_)
  refine .bind (.thenTerminate ((drive_shown (hrun _) _).mono fun r s₁ messages h => ?_))
  obtain ⟨htold, hresult⟩ := h
  cases r with
  | error e => simpa using htold
  | ok r =>
    refine (report_shown (hresult r rfl) r.2 _).mono fun _ _ messages' hreport => ?_
    simpa using List.forall_mem_append.2 ⟨htold, hreport⟩

end Session

namespace Program

/-- Every lexeme of `source` but layout is placed where its first character stands, at places that
increase (`WellPlaced`). So each statement of a program `p` and each of its branches is on a line
with something on it, and no other line is reported by the runs of `p` and by the sessions that run
it, neither in a `step` nor in a traceback. -/
theorem locations_true (source : String) :
    (∀ ls, lexemes source.toList = .ok ls → WellPlaced source.toList ls) ∧
    ∀ p, ofSource source = .ok p →
      (∀ around s, Stands p.body around s →
        p.ShowsLine s.loc.line ∧ ∀ b ∈ s.branches, p.ShowsLine b.loc.line) ∧
      (∀ limit, (p.run limit).Always (p.ShowsLine ·.line) (·.1.ShownIn p)) ∧
      ∀ session, Session.Tells (Session.execute Wire.endpoint source) session
        fun _ _ messages => ∀ m ∈ messages, m.ShownIn p := by
  refine ⟨fun ls hlex => lexemes_wellPlaced hlex, fun p h => ?_⟩
  have hgood : LinesGood p.ShowsLine p.body := fun around s hs => statements_shown h hs
  exact ⟨hgood, run_lined hgood, Session.execute_shown h (run_lined hgood)⟩

/-- A text on two lines, and the call `f()` that raises an exception. -/
theorem locations_true_call :
    let source := "'a\\\nb'\ndef f():\n  y\nf()\n"
    ∃ p ls e, ofSource source = .ok p ∧ lexemes source.toList = .ok ls ∧
      WellPlaced source.toList ls ∧ ((p.run 2).drive watching ()).1.1 = .raised e ∧
      (Traceback.ofException e).entries = [⟨moduleName, 5⟩, ⟨"f", 4⟩] ∧
      p.ShowsLine 5 ∧ p.ShowsLine 4 := by
  intro source
  let p : Program := ⟨[.expr (.str "ab" ⟨1, 1⟩) ⟨1, 1⟩,
      .define ⟨"f", [], [.expr (.name "y" ⟨4, 3⟩) ⟨4, 3⟩], [], ⟨3, 1⟩⟩,
      .expr (.call (.name "f" ⟨5, 1⟩) [] [] ⟨5, 2⟩) ⟨5, 1⟩],
    ["'a\\", "b'", "def f():", "  y", "f()"]⟩
  let e : Exception := ⟨.undefinedName "y", ⟨4, 3⟩, [⟨"f", 4⟩, ⟨moduleName, 5⟩]⟩
  have hsource : ofSource source = .ok p := by
    unfold source p
    rw [ofSource_of_lexemes (by cbv)]
    rfl
  have hraised : ((p.run 2).drive watching ()).1.1 = .raised e := rfl
  obtain ⟨hplaced, hprogram⟩ := locations_true source
  obtain ⟨-, hrun, -⟩ := hprogram p hsource
  obtain ⟨ls, -, hlex, -⟩ := exists_of_ofSource hsource
  have hshown : ∀ entry ∈ (Traceback.ofException e).entries, p.ShowsLine entry.line :=
    (hrun 2).drive e hraised
  have hcaller : p.ShowsLine 5 := hshown ⟨moduleName, 5⟩ (.head _)
  have hcall : p.ShowsLine 4 := hshown ⟨"f", 4⟩ (.tail _ (.head _))
  exact ⟨p, ls, e, hsource, hlex, hplaced ls hlex, hraised, rfl, hcaller, hcall⟩

end Program

end Stepper
