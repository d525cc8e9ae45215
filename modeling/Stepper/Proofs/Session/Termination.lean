import Stepper.Proofs.Execution.Hooks
import Stepper.Proofs.Session.Conversation

/-!
# Everything ends

The definitions of this library bound their loops: `Program.run` the turns of the loops of a
program, and `Session.serve` its own loops by what the channel says of the lines that are left. Here
it is shown that the bounds are not what ends the loops.

* `Program.consulted_or_ends`, `Program.ends_within`: every turn of a loop pauses, so a hook is
  asked again or the run has ended, and a run whose hook aborts in time is not cut off.
* `Session.serveWithin`: a session that yields nothing if one of its loops, or one of its program,
  would go on beyond a bound.
* `Session.uncut_serve`: with bounds that are large enough for the input and for the limits it does
  what `Session.serve` does. Each round of a loop takes a line from the input, and a program pauses
  only as often as there are steps left.
-/

namespace Stepper

/-! ## Programs -/

/-- What has ended with `a`, and is not cut off (`¬ C a`), is the same with more turns. -/
theorem Execution.Extends.eq_ended {C : α → Prop} {n : Nat} {a : α} {y : Execution α}
    (h : Extends C n (.ended a) y) (ha : ¬ C a) : y = .ended a := by
  cases h with
  | cut hcut => exact absurd hcut ha
  | ended => rfl

namespace Program

variable {p : Program} {hook : Pause → StateM σ Reply} {s : σ}

/-- A run that is cut off at `limit` has paused at least `limit` times. -/
theorem le_length_of_unfinished {limit : Nat}
    (h : ((p.run limit).drive hook s).1.1 = .unfinished) :
    limit ≤ ((p.run limit).history hook s).length :=
  (p.run_extends (Nat.le_refl limit) (Nat.le_refl limit)).le_length_of_cut h

/-- A run whose hook is not asked at pause `i` has ended within `i + 1` turns of its loops, and is
the same for every `limit` above `i`. -/
theorem drive_eq_of_consultation?_eq_none {i limit : Nat}
    (h : p.consultation? hook s i = none) (hlimit : i < limit) :
    ((p.run (i + 1)).drive hook s).1.1 ≠ .unfinished ∧
      (p.run limit).drive hook s = (p.run (i + 1)).drive hook s := by
  have hcut : ((p.run (i + 1)).drive hook s).1.1 ≠ .unfinished := by
    intro hcut
    have hlength := le_length_of_unfinished hcut
    have hshort := List.getElem?_eq_none_iff.1 h
    omega
  exact ⟨hcut, drive_eq_of_le hlimit hcut⟩

/-- The hook is asked at pause `i`, or the run has ended. -/
theorem consulted_or_ends (p : Program) (hook : Pause → StateM σ Reply) (s : σ) (i : Nat) :
    (∃ c, p.consultation? hook s i = some c) ∨ ∃ outcome m, p.Ends hook s outcome m := by
  cases h : p.consultation? hook s i with
  | some c => exact .inl ⟨c, rfl⟩
  | none =>
    obtain ⟨hcut, -⟩ := drive_eq_of_consultation?_eq_none h (Nat.lt_succ_self i)
    exact .inr ⟨_, _, hcut, i + 1, _, rfl⟩

/-- A run ends if its hook answers `abort` at pause `n`, or has ended it before; any `limit` above
`n` gives the same end. -/
theorem ends_within {n : Nat}
    (h : ∀ c, p.consultation? hook s n = some c → c.2.answer = .abort) :
    ∃ outcome m t, outcome ≠ .unfinished ∧
      ∀ limit > n, (p.run limit).drive hook s = ((outcome, m), t) := by
  have hcut : ((p.run (n + 1)).drive hook s).1.1 ≠ .unfinished := by
    cases hc : p.consultation? hook s n with
    | none => exact (drive_eq_of_consultation?_eq_none hc (Nat.lt_succ_self n)).1
    | some c =>
      obtain ⟨-, hend⟩ := (p.run_obeys (n + 1)).length_of_abort hc (h c hc)
      rw [hend]
      nofun
  exact ⟨_, _, _, hcut, fun limit hlimit => drive_eq_of_le hlimit hcut⟩

end Program

/-! ## Sessions that may be cut off -/

namespace Session

section Within

variable {m : Type → Type} [Monad m]

/-- The part `act` of a session, as one that is not cut off. -/
def whole (act : SessionM m α) : OptionT (SessionM m) α :=
  OptionT.lift act

/-- Reads the lines of a program in at most `rounds` rounds, and is cut off in the last. -/
def codeLinesWithin (p : Endpoint m) : Nat → OptionT (SessionM m) (List String)
  | 0 => failure
  | rounds + 1 => do
    match ← whole (onChannel p.readLine) with
    | none => return []
    | some line =>
      if Text.trim line = endOfCode then return []
      else return (line ++ "\n") :: (← codeLinesWithin p rounds)

/-- Reads a program in at most `rounds` rounds. -/
def collectCodeWithin (p : Endpoint m) (rounds : Nat) : OptionT (SessionM m) String := do
  let lines ← codeLinesWithin p rounds
  whole (setPhase .running)
  return String.join lines

/-- Runs `source` with loops that turn at most `turns` times, and tells how it has ended; cut off if
the run is `unfinished`. -/
def executeWithin (p : Endpoint m) (turns : Nat) (source : String) : OptionT (SessionM m) Unit := do
  whole (setPhase .running)
  match Program.ofSource source with
  | .error e =>
    whole (setPhase .terminated)
    whole (send p (.error ⟨.source, (e.trace source).render, none⟩))
  | .ok program =>
    let (outcome, machine) ← whole (thenTerminate ((program.run turns).drive (pauseAt p)))
    match outcome with
    | .unfinished => failure
    | outcome => whole (report p program outcome machine)

/-- Answers commands in at most `rounds` rounds. -/
def answerCommandsWithin (p : Endpoint m) : Nat → OptionT (SessionM m) Unit
  | 0 => failure
  | rounds + 1 => do
    match ← whole (onChannel p.readPostRun) with
    | none | some .exit => return
    | some .restart => whole (send p (.waitingForNewCode true))
    | some (.other text) =>
      whole (send p (.heartbeat true text))
      answerCommandsWithin p rounds

/-- Answers commands after the program has ended, in at most `rounds` rounds. -/
def postRunLoopWithin (p : Endpoint m) (rounds : Nat) : OptionT (SessionM m) Unit := do
  answerCommandsWithin p rounds
  whole (setPhase .terminated)

/-- The whole session, in which no loop of its own makes more than `rounds` rounds, and no loop of
its program more than `turns` turns. -/
def serveWithin (p : Endpoint m) (rounds turns : Nat) : OptionT (SessionM m) Unit := do
  whole (handshake p)
  if (← whole (receiveSessionId p)).isSome then
    executeWithin p turns (← collectCodeWithin p rounds)
    if (← whole get).phase = .finished then
      postRunLoopWithin p rounds

end Within

/-- The part `x` of a session, which may be cut off, does on `s` and `w` what `y` does there and is
not cut off. -/
def Uncut (x : OptionT (SessionM (StateM Wire)) α) (y : SessionM (StateM Wire) α) (s : Session)
    (w : Wire) : Prop :=
  runOn x.run s w = match runOn y s w with
    | ((r, s'), w') => ((r.map some, s'), w')

section Uncut

variable {s : Session} {w : Wire}

theorem uncut_whole (act : SessionM (StateM Wire) α) : Uncut (whole act) act s w := by
  unfold Uncut whole
  rw [OptionT.run_lift, runOn_bind]
  rcases runOn act s w with ⟨⟨r, s'⟩, w'⟩
  cases r <;> rfl

theorem Uncut.congr {x : OptionT (SessionM (StateM Wire)) α} {y y' : SessionM (StateM Wire) α}
    (h : Uncut x y s w) (hy : runOn y s w = runOn y' s w) : Uncut x y' s w := by
  unfold Uncut at h ⊢
  rw [← hy]
  exact h

theorem uncut_pure (a : α) : Uncut (pure a) (pure a) s w := rfl

theorem Uncut.bind {x : OptionT (SessionM (StateM Wire)) α} {y : SessionM (StateM Wire) α}
    {f : α → OptionT (SessionM (StateM Wire)) β} {g : α → SessionM (StateM Wire) β}
    (hx : Uncut x y s w)
    (hf : ∀ a s' w', runOn y s w = ((.ok a, s'), w') → Uncut (f a) (g a) s' w') :
    Uncut (x >>= f) (y >>= g) s w := by
  unfold Uncut at hx ⊢
  rw [OptionT.run_bind, Option.elimM, runOn_bind, runOn_bind, hx]
  rcases hy : runOn y s w with ⟨⟨r, s'⟩, w'⟩
  cases r with
  | error e => rfl
  | ok a => exact hf a s' w' hy

end Uncut

/-! ## The loops of a session -/

section Reading

variable {s s' : Session} {w w' : Wire}

/-- What `Tells` says of `act` holds of each of its runs, and nothing comes to the input of `w`. -/
theorem Tells.of_runOn_eq {act : SessionM (StateM Wire) α} {r : Except ChannelError α}
    {Q : Except ChannelError α → Session → List Message → Prop} (h : Tells act s Q)
    (hrun : runOn act s w = ((r, s'), w')) :
    w'.unread.length ≤ w.unread.length ∧ ∃ messages, Q r s' messages := by
  obtain ⟨r₁, s₁, w₁, messages, hrun₁, hlater, -, hq⟩ := h w
  rw [hrun] at hrun₁
  cases hrun₁
  exact ⟨hlater.unread.length_le, messages, hq⟩

theorem splitLine_append (bytes : List UInt8) :
    (Wire.splitLine bytes).1 ++ (Wire.splitLine bytes).2 = bytes := by
  have h := List.takeWhile_append_dropWhile (p := (· != lineFeed)) (l := bytes)
  unfold Wire.splitLine
  split
  · next hnil =>
    rw [hnil] at h
    exact h
  · next feed rest hrest =>
    rw [hrest] at h
    simpa using h

/-- A line that is read is no longer in `unread`. -/
theorem unread_length_lt {line : String}
    (h : runOn (onChannel Wire.endpoint.readLine) s w = ((.ok (some line), s'), w')) :
    w'.unread.length < w.unread.length := by
  have hrun : runOn (onChannel Wire.endpoint.readLine) s w =
      ((textOfLine w.takeLine.1, s), w.takeLine.2) := rfl
  rw [hrun] at h
  obtain ⟨⟨htext, -⟩, rfl⟩ : (textOfLine w.takeLine.1 = .ok (some line) ∧ s = s') ∧
      w.takeLine.2 = w' := by simpa using h
  have hne : w.takeLine.1 ≠ [] := by
    intro hnil
    rw [hnil] at htext
    cases htext
  have happend := congrArg List.length (splitLine_append w.unread)
  rw [List.length_append] at happend
  have hpos := List.length_pos_iff.2 hne
  change 0 < (Wire.splitLine w.unread).1.length at hpos
  change (Wire.splitLine w.unread).2.length < w.unread.length
  omega

theorem unread_length_lt_of_postRun {command : PostRunCommand}
    (h : runOn (onChannel Wire.endpoint.readPostRun) s w = ((.ok (some command), s'), w')) :
    w'.unread.length < w.unread.length := by
  rw [onChannel_readPostRun, runOn_bind] at h
  rcases hline : runOn (onChannel Wire.endpoint.readLine) s w with ⟨⟨r, s₁⟩, w₁⟩
  rw [hline] at h
  match r with
  | .error e => exact absurd (congrArg (·.1.1) h) nofun
  | .ok none => exact absurd (congrArg (·.1.1) h) nofun
  | .ok (some line) =>
    obtain rfl : w₁ = w' := congrArg Prod.snd h
    exact unread_length_lt hline

/-- Each round but the last takes a line, so more rounds than there are bytes in `unread` are
enough. -/
theorem uncut_codeLines {rounds rounds' : Nat} (h : w.unread.length < rounds)
    (h' : w.unread.length < rounds') :
    Uncut (codeLinesWithin Wire.endpoint rounds) (codeLines Wire.endpoint rounds') s w := by
  induction rounds generalizing rounds' s w with
  | zero => omega
  | succ rounds ih =>
    obtain ⟨rounds', rfl⟩ : ∃ n, rounds' = n + 1 := ⟨rounds' - 1, by omega⟩
    refine (uncut_whole _).bind fun line? s₁ w₁ hline => ?_
    cases line? with
    | none => exact uncut_pure []
    | some line =>
      dsimp only
      split
      · exact uncut_pure []
      · have hlt := unread_length_lt hline
        refine (ih (by omega) (by omega)).bind fun lines s₂ w₂ _ => ?_
        exact uncut_pure _

theorem uncut_answerCommands {rounds rounds' : Nat} (h : w.unread.length < rounds)
    (h' : w.unread.length < rounds') :
    Uncut (answerCommandsWithin Wire.endpoint rounds) (answerCommands Wire.endpoint rounds') s
      w := by
  induction rounds generalizing rounds' s w with
  | zero => omega
  | succ rounds ih =>
    obtain ⟨rounds', rfl⟩ : ∃ n, rounds' = n + 1 := ⟨rounds' - 1, by omega⟩
    refine (uncut_whole _).bind fun command? s₁ w₁ hread => ?_
    match command? with
    | none => exact uncut_pure ()
    | some .exit => exact uncut_pure ()
    | some .restart => exact uncut_whole _
    | some (.other text) =>
      have hlt := unread_length_lt_of_postRun hread
      refine (uncut_whole _).bind fun u s₂ w₂ hsend => ih ?_ ?_
      all_goals
        have htells : Tells (send Wire.endpoint (.heartbeat true text)) s₁ fun _ _ _ => True :=
          .send trivial fun _ => trivial
        obtain ⟨hle, -⟩ := htells.of_runOn_eq hsend
        omega

theorem runOn_wire_linesLeft :
    runOn (liftM Wire.endpoint.linesLeft) s w = ((.ok w.unread.length, s), w) := rfl

theorem uncut_collectCode {rounds : Nat} (h : w.unread.length < rounds) :
    Uncut (collectCodeWithin Wire.endpoint rounds) (collectCode Wire.endpoint) s w := by
  unfold Uncut collectCode
  rw [runOn_bind, runOn_wire_linesLeft]
  refine (uncut_codeLines h (Nat.lt_succ_self _)).bind fun lines s₁ w₁ _ => ?_
  exact (uncut_whole _).bind fun _ _ _ _ => uncut_pure _

theorem uncut_postRunLoop {rounds : Nat} (h : w.unread.length < rounds) :
    Uncut (postRunLoopWithin Wire.endpoint rounds) (postRunLoop Wire.endpoint) s w := by
  unfold Uncut postRunLoop
  rw [runOn_bind, runOn_wire_linesLeft]
  refine (uncut_answerCommands h (Nat.lt_succ_self _)).bind fun _ _ _ _ => ?_
  exact uncut_whole _

end Reading

/-! ## The loops of its program -/

section Running

variable {s : Session} {w : Wire}

/-- A session that may make fewer steps than `x` has pauses before it can be cut off (`Extends` up
to `n`) runs it to an end that is not `unfinished`, and that is the same with the turns of `y`. -/
theorem drive_pauseAt_extends {x y : Execution (Outcome × Machine)} {n : Nat}
    (h : x.Extends (fun r => r.1 = .unfinished) n y) (hobeys : x.Obeys fun r => r.1 = .aborted)
    (hs : s.steps ≤ s.limits.maxSteps) (hn : s.limits.maxSteps < s.steps + n) :
    runOn (x.drive (pauseAt Wire.endpoint)) s w = runOn (y.drive (pauseAt Wire.endpoint)) s w ∧
      ∀ m, (runOn (x.drive (pauseAt Wire.endpoint)) s w).1.1 ≠ .ok (.unfinished, m) := by
  -- At each pause a step is made and `n` goes down, so `maxSteps < steps + n` stays true.
  induction h generalizing s w with
  | cut => omega
  | @ended n a ha =>
    refine ⟨rfl, fun m hm => ha ?_⟩
    have hresult : a = (.unfinished, m) := Except.ok.inj hm
    rw [hresult]
  | @paused n p resume resume' hresume ih =>
    cases hobeys with
    | paused hstop hgo =>
      have hdrive : ∀ (r : Reply → Execution (Outcome × Machine)),
          (Execution.paused p r).drive (pauseAt Wire.endpoint) =
            (pauseAt Wire.endpoint p >>= fun reply => (r reply).drive (pauseAt Wire.endpoint)) :=
        fun _ => rfl
      rw [hdrive, hdrive, runOn_bind, runOn_bind]
      obtain ⟨r, s₁, w₁, messages, hrun, -, -, htold⟩ := pauseAt_tells p hs w
      rw [hrun]
      cases r with
      | error e => exact ⟨rfl, nofun⟩
      | ok reply =>
        dsimp only
        by_cases hr : reply.answer = .abort
        · -- What has been told to stop has ended, aborted, and so has what extends it.
          obtain ⟨a, ha, hend⟩ := hstop reply hr
          have hextends := hresume reply
          have hcut : a.1 ≠ .unfinished := by
            rw [ha]
            nofun
          rw [hend] at hextends
          rw [hend, hextends.eq_ended hcut]
          refine ⟨rfl, fun m hm => hcut ?_⟩
          have hresult : a = (.unfinished, m) := Except.ok.inj hm
          rw [hresult]
        · cases htold with
          | step e hcount =>
            refine ih reply (hgo reply hr) hcount.bound ?_
            have hlimits := hcount.limits
            have hsteps : s₁.steps = s.steps + 1 := hcount.steps
            rw [hlimits, hsteps]
            omega
          | stopped => exact absurd rfl hr

theorem uncut_execute {turns : Nat} (source : String) (hs : s.steps ≤ s.limits.maxSteps)
    (hturns : s.limits.maxSteps < turns) :
    Uncut (executeWithin Wire.endpoint turns source) (execute Wire.endpoint source) s w := by
  refine (uncut_whole _).bind fun _ s₁ w₁ hphase => ?_
  rw [runOn_setPhase] at hphase
  obtain rfl : { s with phase := .running } = s₁ := congrArg (·.1.2) hphase
  cases Program.ofSource source with
  | error e => exact (uncut_whole _).bind fun _ _ _ _ => uncut_whole _
  | ok program =>
    have hextends := program.run_extends hturns (Nat.le_refl (s.limits.maxSteps + 1))
    obtain ⟨hdrive, hcut⟩ := drive_pauseAt_extends (s := { s with phase := .running }) (w := w₁)
      hextends (program.run_obeys _) hs (by dsimp only; omega)
    have hget : ∀ f : Session → SessionM (StateM Wire) Unit, ∀ s',
        runOn (f s') s' w₁ = runOn (get >>= f) s' w₁ := fun f s' => by rw [runOn_bind, runOn_get]
    refine Uncut.congr ?_ (hget _ _)
    refine ((uncut_whole _).congr ?_).bind fun (outcome, machine) s₂ w₂ hend => ?_
    · rw [runOn_thenTerminate, runOn_thenTerminate, hdrive]
    · rw [runOn_thenTerminate] at hend
      cases outcome with
      | unfinished => exact absurd (congrArg (·.1.1) hend) (hcut machine)
      | completed | aborted | raised _ => exact uncut_whole _

/-- With more `rounds` than there are bytes and more `turns` than `maxSteps`, a session is not cut
off. -/
theorem uncut_serve {rounds turns : Nat} (hs : s.steps ≤ s.limits.maxSteps)
    (hrounds : w.unread.length < rounds) (hturns : s.limits.maxSteps < turns) :
    Uncut (serveWithin Wire.endpoint rounds turns) (serve Wire.endpoint) s w := by
  refine (uncut_whole _).bind fun _ s₁ w₁ hready => ?_
  obtain ⟨hle₁, _, hlimits₁, hsteps₁, -⟩ := handshake_tells.of_runOn_eq hready
  refine (uncut_whole _).bind fun id s₂ w₂ hid => ?_
  obtain ⟨hle₂, _, hlimits₂, hsteps₂, -⟩ := receiveSessionId_tells.of_runOn_eq hid
  split
  · refine (uncut_collectCode (by omega)).bind fun source s₃ w₃ hcode => ?_
    obtain ⟨hle₃, _, hs₃, -⟩ := collectCode_tells.of_runOn_eq hcode
    have hlimits₃ : s₃.limits = s.limits := by rw [hs₃, hlimits₂, hlimits₁]
    have hsteps₃ : s₃.steps = s.steps := by rw [hs₃, hsteps₂, hsteps₁]
    have hbound : s₃.steps ≤ s₃.limits.maxSteps := by rwa [hlimits₃, hsteps₃]
    refine (uncut_execute source hbound (by rwa [hlimits₃])).bind fun _ s₄ w₄ hend => ?_
    obtain ⟨hle₄, -⟩ := (execute_tells source hbound).of_runOn_eq hend
    refine (uncut_whole _).bind fun now s₅ w₅ hnow => ?_
    rw [runOn_get] at hnow
    obtain rfl : w₄ = w₅ := congrArg Prod.snd hnow
    split
    · exact uncut_postRunLoop (by omega)
    · exact uncut_pure ()
  · exact uncut_pure ()

end Running

/-- Nothing goes on for ever without a pause. A run of `p` that is cut off at `limit` has paused
`limit` times, so its hook is asked once more or the run has ended; and a hook that answers `abort`
at pause `n`, if not before, ends the run at every `limit` above `n`. A session ends on every
`input`: more `rounds` than it has bytes, and more `turns` than `maxSteps`, do not cut it off. -/
theorem everything_ends (p : Program) (hook : Pause → StateM σ Reply) (t : σ) (limits : Limits)
    (input : List UInt8) (writesLeft : Option Nat) :
    (∀ limit, ((p.run limit).drive hook t).1.1 = .unfinished →
      limit ≤ ((p.run limit).history hook t).length) ∧
    (∀ i, (∃ c, p.consultation? hook t i = some c) ∨ ∃ outcome m, p.Ends hook t outcome m) ∧
    (∀ n, (∀ c, p.consultation? hook t n = some c → c.2.answer = .abort) →
      ∃ outcome m t', outcome ≠ .unfinished ∧
        ∀ limit > n, (p.run limit).drive hook t = ((outcome, m), t')) ∧
    ∀ rounds turns, input.length < rounds → limits.maxSteps < turns → ∃ r s w,
      runOn (serve Wire.endpoint) (new limits) (Wire.ofInput input writesLeft) = ((r, s), w) ∧
      runOn (serveWithin Wire.endpoint rounds turns).run (new limits)
        (Wire.ofInput input writesLeft) = ((r.map some, s), w) := by
  refine ⟨fun limit => p.le_length_of_unfinished, p.consulted_or_ends hook t,
    fun n => p.ends_within, fun rounds turns hrounds hturns => ?_⟩
  have huncut : Uncut (serveWithin Wire.endpoint rounds turns) (serve Wire.endpoint) (new limits)
      (Wire.ofInput input writesLeft) := uncut_serve (Nat.zero_le _) hrounds hturns
  unfold Uncut at huncut
  exact ⟨_, _, _, rfl, huncut⟩

/-- The program `while True: pass`, which never ends by itself, under a hook that aborts at its
second pause, and in a session that may pause twice. -/
theorem everything_ends_while :
    let p : Program := ⟨[.whileLoop (.bool true ⟨1, 7⟩) [.pass ⟨1, 13⟩] ⟨1, 1⟩],
      ["while True: pass"]⟩
    let hook : Pause → StateM Nat Reply := fun _ n =>
      (⟨if n = 0 then .step else .abort, none⟩, n + 1)
    let input : List UInt8 := "s\nwhile True: pass\n===END_OF_CODE===\nstep\nstep\n".toUTF8.toList
    (∃ outcome m t, outcome ≠ .unfinished ∧
      ∀ limit > 1, (p.run limit).drive hook 0 = ((outcome, m), t)) ∧
    ∃ (r : Except ChannelError Unit) (s : Session) (w : Wire),
      runOn (serveWithin Wire.endpoint 100 3).run (new ⟨2, 10, 10⟩) (Wire.ofInput input none) =
        ((r.map some, s), w) := by
  intro p hook input
  have habort : ∀ c, p.consultation? hook 0 1 = some c → c.2.answer = .abort := by
    intro c hc
    have hanswer : (p.consultation? hook 0 1).map (·.2.answer) = some .abort := by decide +kernel
    rw [hc] at hanswer
    exact Option.some.inj hanswer
  obtain ⟨-, -, hend, hserve⟩ := everything_ends p hook 0 ⟨2, 10, 10⟩ input none
  obtain ⟨r, s, w, -, hrun⟩ := hserve 100 3 (by decide +kernel) (by decide)
  exact ⟨hend 1 habort, r, s, w, hrun⟩

end Session

end Stepper
