import Stepper.Proofs.Session.Conversation
import Stepper.Proofs.Session.Lockstep

/-!
# Display limits and the choice of commands do not show

* `Message.SameButDisplay`: two messages that differ at most in the texts of values and in how much
  of the output is shown at a step.
* `intake`: the part of a session before its program runs; `Session.pausesOf`: the pauses of a
  program that is never stopped by a command, `Session.pauseCount` of them; `Session.courseOf`: what
  such a session tells.
* `Session.serve_display`: two sessions with the same program that may make as many steps, whose
  commands all let the program go on, tell the same but for what the limits on display cut away.
-/

namespace Stepper

/-! ## What a limit on values does -/

namespace Snapshot

/-- A `limit` cuts the texts that are shown without one (`0`), and changes nothing else. -/
theorem textsOf_eq (s : Store) (limit : Nat) (bindings : List (String × Value)) :
    textsOf s limit bindings =
      (textsOf s 0 bindings).map (List.map fun v => (v.1, cut limit v.2)) := by
  unfold textsOf
  generalize bindings.filter _ = shown
  induction shown with
  | nil => rfl
  | cons b rest ih =>
    rw [List.mapM_cons, List.mapM_cons, ih]
    cases s.repr b.2 with
    | error e => rfl
    | ok text =>
      generalize (rest.mapM _ : Except TooDeep (List (String × String))) = texts
      cases texts <;> rfl

/-- The names that `capture` shows, and their order, do not depend on the limit. -/
theorem names_capture (s : Store) (limit limit' : Nat) (bindings : List (String × Value)) :
    (capture s limit bindings).vars.map (·.1) = (capture s limit' bindings).vars.map (·.1) := by
  have names_eq (limit : Nat) : (capture s limit bindings).vars.map (·.1) =
      (capture s 0 bindings).vars.map (·.1) := by
    unfold capture
    rw [textsOf_eq s limit]
    cases textsOf s 0 bindings with
    | error e => rfl
    | ok vars => simp [Except.map]
  rw [names_eq limit, names_eq limit']

end Snapshot

/-- Two messages that are the same, or two steps with the same line, file and names: they may differ
in the texts of values and in the part of the output that they show. -/
inductive Message.SameButDisplay : Message → Message → Prop
  | same (message : Message) : SameButDisplay message message
  | step {e e' : StepEvent} : e.line = e'.line → e.filename = e'.filename →
      e.vars.vars.map (·.1) = e'.vars.vars.map (·.1) → SameButDisplay (.step e) (.step e')

/-- What a session tells: `ready`, a `step` for each of `boundaries`, and `others`. -/
def courseOf (limits : Limits) (boundaries : List Pause) (others : List Message) : List Message :=
  .ready true :: boundaries.map (fun b => .step (eventAt limits b)) ++ others

/-- The event of boundary `i` is message `i + 1`, after `ready`. -/
theorem getElem?_courseOf {limits : Limits} {boundaries : List Pause} {others : List Message}
    {i : Nat} {e : StepEvent} (h : boundaries[i]?.map (eventAt limits) = some e) :
    (courseOf limits boundaries others)[i + 1]? = some (.step e) := by
  obtain ⟨b, hb, rfl⟩ := Option.map_eq_some_iff.1 h
  have hlt : i < boundaries.length := (List.getElem?_eq_some_iff.1 hb).1
  rw [courseOf, List.cons_append, List.getElem?_cons_succ,
    List.getElem?_append_left (by rwa [List.length_map]), List.getElem?_map, hb, Option.map_some]

theorem forall₂_courseOf (limits limits' : Limits) (boundaries : List Pause)
    (others : List Message) :
    List.Forall₂ Message.SameButDisplay (courseOf limits boundaries others)
      (courseOf limits' boundaries others) := by
  refine List.rel_append (.cons (.same _) ?_) (List.forall₂_same.2 fun _ _ => .same _)
  rw [List.forall₂_map_left_iff, List.forall₂_map_right_iff, List.forall₂_same]
  exact fun b _ => .step rfl rfl (Snapshot.names_capture _ _ _ _)

namespace Session

/-! ## Before the program -/

/-- A session up to its program: its name, and the text that `collectCode` reads. -/
def intake [Monad m] (p : Endpoint m) : SessionM m (Option String × String) := do
  handshake p
  let id ← receiveSessionId p
  return (id, ← collectCode p)

/-- From `input` a session gets the name `id` and the program `source`, and `rest` is left. -/
def Receives (limits : Limits) (input : List UInt8) (id source : String) (rest : List UInt8) :
    Prop :=
  ∃ s acts, runOn (intake Tape.endpoint) (new limits) ⟨input, []⟩ =
    ((.ok (some id, source), s), ⟨rest, acts⟩)

theorem runOn_receiveSessionId (s : Session) (t : Tape) :
    runOn (receiveSessionId Tape.endpoint) s t =
      match (textOfLine t.takeLine.1).map fun line => (line.map Text.trim).filter (!·.isEmpty) with
      | .ok id => ((.ok id,
          { s with id := id, phase := if id.isSome then .collectingCode else .terminated }),
          t.takeLine.2)
      | .error e => ((.error e, s), t.takeLine.2) := by
  unfold receiveSessionId
  rw [runOn_bind, runOn_readLine]
  cases textOfLine t.takeLine.1 <;> rfl

/-- If `x` tells messages on a channel in memory, `y` tells them on a tape that it `Mirrors`. -/
theorem Tells.runOn_tape {x : SessionM (StateM Wire) α} {y : SessionM (StateM Tape) α} {s : Session}
    {Q : Except ChannelError α → Session → List Message → Prop} (h : Tells x s Q)
    (hxy : Mirrors x y) (t : Tape) :
    ∃ messages, Q (runOn y s t).1.1 (runOn y s t).1.2 messages ∧
      (runOn y s t).2.sent = t.sent ++ messages.map Message.line := by
  let w : Wire := ⟨t.unread, t.sent.toArray, none⟩
  rcases hxy s w t ⟨rfl, rfl⟩ with ⟨cause, hfail⟩ | ⟨hrun, hrecorded⟩
  · exact absurd hfail (h.ne_write rfl cause)
  · obtain ⟨r, s', w', messages, hx, hlater, -, hq⟩ := h w
    rw [hx] at hrun hrecorded
    refine ⟨messages, by rwa [← hrun], ?_⟩
    rw [← hrecorded.sent, hlater.sent]

theorem runOn_collectCode {s s' : Session} {t t' : Tape} {source : String}
    (h : runOn (collectCode Tape.endpoint) s t = ((.ok source, s'), t')) :
    s' = { s with phase := .running } ∧ t'.sent = t.sent := by
  obtain ⟨messages, ⟨hs, rfl⟩, hsent⟩ :=
    collectCode_tells.runOn_tape (collectCode_rel mirrors_congruence) t (s := s)
  rw [h] at hs hsent
  exact ⟨hs, hsent.trans (List.append_nil _)⟩

/-- A session that has got `source` has told `ready`, runs the program and answers commands. -/
theorem Receives.runOn_serve {limits : Limits} {input : List UInt8} {id source : String}
    {rest : List UInt8} (h : Receives limits input id source rest) :
    ∃ acts, acts.filterMap Act.written? = [(Message.ready true).line] ∧
      runOn (serve Tape.endpoint) (new limits) ⟨input, []⟩ =
        runOn (do
          execute Tape.endpoint source
          if (← get).phase = .finished then postRunLoop Tape.endpoint)
          ⟨limits, .running, some id, 0⟩ ⟨rest, acts⟩ := by
  obtain ⟨s, acts, hrun⟩ := h
  have hhandshake : runOn (handshake Tape.endpoint) (new limits) ⟨input, []⟩ =
      ((.ok (), { new limits with phase := .awaitingSessionId }),
        (Tape.mk input []).write (Message.ready true).line) := rfl
  unfold intake at hrun
  rw [runOn_bind, hhandshake] at hrun
  unfold serve
  rw [runOn_bind, hhandshake]
  dsimp only at hrun ⊢
  rw [runOn_bind, runOn_receiveSessionId] at hrun
  rw [runOn_bind, runOn_receiveSessionId]
  generalize hid : Except.map _ _ = id? at hrun ⊢
  cases id? with
  | error e => cases hrun
  | ok id' =>
    dsimp only at hrun ⊢
    rw [runOn_bind] at hrun
    rcases hcollect : runOn (collectCode Tape.endpoint) _ _ with ⟨⟨r, s₁⟩, t₁⟩
    rw [hcollect] at hrun
    cases r with
    | error e => cases hrun
    | ok source' =>
      cases hrun
      obtain ⟨rfl, hsent⟩ := runOn_collectCode hcollect
      refine ⟨acts, hsent, ?_⟩
      simp only [Option.isSome_some, ↓reduceIte] at hcollect ⊢
      rw [runOn_bind, hcollect]
      rfl

/-! ## The program -/

/-- How often `source` pauses in a session that makes at most `maxSteps` pauses and never stops
it. -/
def pauseCount (source : String) (maxSteps : Nat) : Nat :=
  match Program.ofSource source with
  | .ok program => min (program.run (maxSteps + 1)).pauses.length maxSteps
  | .error _ => 0

/-- The pauses that are told of then, the first `maxSteps` of the program. -/
def pausesOf (source : String) (maxSteps : Nat) : List Pause :=
  match Program.ofSource source with
  | .ok program => (program.run (maxSteps + 1)).pauses.take maxSteps
  | .error _ => []

theorem length_pausesOf (source : String) (maxSteps : Nat) :
    (pausesOf source maxSteps).length = pauseCount source maxSteps := by
  rw [pausesOf, pauseCount]
  split
  · rw [List.length_take, Nat.min_comm]
  · rfl

/-- Those are the boundaries of the program, as far as `maxSteps` goes. -/
theorem pauseCount_eq {source : String} {program : Program}
    (h : Program.ofSource source = .ok program) (maxSteps : Nat) :
    (pauseCount source maxSteps : ℕ∞) = min program.boundaryCount maxSteps := by
  rw [Program.min_boundaryCount (Nat.le_succ maxSteps), pauseCount, h]

/-- What is told of the end of a program that no command has stopped, and the phase after it: that
`maxSteps` is reached, or what `reported` tells. -/
def closingOf (program : Program) (maxSteps : Nat) : List Message × Phase :=
  let alone := program.run (maxSteps + 1)
  if maxSteps < alone.pauses.length then ([.maxStepsReached], .terminated)
  else
    let (outcome, m) := (alone.drive watching ()).1
    (reported program outcome m, outcome.phase)

theorem RunEnd.closing_eq {n maxSteps : Nat} {program : Program} {outcome : Outcome} {m : Machine}
    {closing : List Message}
    (h : RunEnd n (program.run (maxSteps + 1)) ((program.run (maxSteps + 1)).pauses.take maxSteps)
      (outcome, m) closing)
    (hn : min (program.run (maxSteps + 1)).pauses.length maxSteps ≤ n) :
    closingOf program maxSteps = (closing ++ reported program outcome m, outcome.phase) := by
  unfold closingOf
  cases h with
  | halted _ hlength => rw [List.length_take] at hlength; omega
  | stopped _ _ hlength =>
    rw [List.length_take] at hlength
    rw [if_pos (by omega)]
    rfl
  | ended _ htold hresult =>
    have hlength := congrArg List.length htold
    rw [List.length_take] at hlength
    rw [if_neg (by omega), List.nil_append, reported_congr program hresult]
    exact congrArg (fun o : Outcome => (_, o.phase)) hresult.1.symm

/-- A program that no command stops does the same in all sessions with the same `maxSteps`, but for
what is shown at the pauses: `limits` only stands in `exchanges`. -/
theorem runOn_execute_resumed (source : String) (maxSteps : Nat) :
    ∃ (closing : List Message) (phase : Phase),
      ∀ (limits : Limits) (id : Option String) (input : List UInt8), limits.maxSteps = maxSteps →
      (∀ i < pauseCount source maxSteps, Resumes (lineAt input i)) →
      ∀ acts, runOn (execute Tape.endpoint source) ⟨limits, .running, id, 0⟩ ⟨input, acts⟩ =
        ((.ok (), ⟨limits, phase, id, pauseCount source maxSteps⟩),
          ⟨afterLines input (pauseCount source maxSteps),
            acts ++ exchanges limits (pausesOf source maxSteps) input ++
              closing.map Message.act⟩) := by
  cases hsource : Program.ofSource source with
  | error e =>
    refine ⟨[.error ⟨.source, (e.trace source).render, none⟩], .terminated, ?_⟩
    rintro limits id input rfl - acts
    unfold execute pauseCount pausesOf
    rw [hsource]
    simp only [exchanges, List.append_nil]
    rfl
  | ok program =>
    have hcount : pauseCount source maxSteps =
        min (program.run (maxSteps + 1)).pauses.length maxSteps := by rw [pauseCount, hsource]
    refine ⟨(closingOf program maxSteps).1, (closingOf program maxSteps).2, ?_⟩
    rintro limits id input rfl hresume acts
    -- None of the commands halts the program, so it makes all its pauses or reaches the limit.
    obtain ⟨told, outcome, m, closing, htold, hend, hrun⟩ :=
      runOn_execute hsource ⟨limits, .running, id, 0⟩ hresume
        (fun h => by rw [hcount] at h; exact absurd h (Nat.lt_irrefl _))
    have htake : told = (program.run (limits.maxSteps + 1)).pauses.take limits.maxSteps := by
      rw [htold, List.take_eq_take_iff, hcount]
      dsimp only
      omega
    have hpauses : told = pausesOf source limits.maxSteps := by rw [htake, pausesOf, hsource]
    subst htake
    rw [hend.closing_eq (Nat.le_of_eq hcount.symm), hrun, hpauses, length_pausesOf, Nat.zero_add]

/-! ## After the program -/

/-- The command of the line `bytes` after the program has ended. -/
def postRunCommandOf (bytes : List UInt8) : Except ChannelError (Option PostRunCommand) :=
  (textOfLine bytes).map (·.map PostRunCommand.ofLine)

theorem runOn_readPostRun (s : Session) (input : List UInt8) (acts : List Act) :
    runOn (onChannel Tape.endpoint.readPostRun) s ⟨input, acts⟩ =
      ((postRunCommandOf (lineAt input 0), s),
        ⟨afterLines input 1, acts ++ [.took (lineAt input 0)]⟩) := by
  have htape : (Tape.mk input acts).takeLine =
      (lineAt input 0, ⟨afterLines input 1, acts ++ [.took (lineAt input 0)]⟩) := rfl
  rw [onChannel_readPostRun, runOn_bind, runOn_readLine, htape, postRunCommandOf]
  cases textOfLine (lineAt input 0) <;> rfl

/-- What is answered to commands depends on `rounds` and `input` only. -/
theorem runOn_answerCommands (rounds : Nat) (input : List UInt8) :
    ∃ r rest added, ∃ messages : List Message,
      added.filterMap Act.written? = messages.map Message.line ∧
      ∀ s acts, runOn (answerCommands Tape.endpoint rounds) s ⟨input, acts⟩ =
        ((r, s), ⟨rest, acts ++ added⟩) := by
  induction rounds generalizing input with
  | zero => exact ⟨.ok (), input, [], [], rfl, fun s acts => by rw [List.append_nil]; rfl⟩
  | succ rounds ih =>
    unfold answerCommands
    rcases hline : postRunCommandOf (lineAt input 0) with e | (_ | (_ | _ | text))
    case error =>
      refine ⟨.error e, afterLines input 1, [.took (lineAt input 0)], [], rfl, fun s acts => ?_⟩
      rw [runOn_bind, runOn_readPostRun, hline]
    case ok.none | ok.some.exit =>
      refine ⟨.ok (), afterLines input 1, [.took (lineAt input 0)], [], rfl, fun s acts => ?_⟩
      rw [runOn_bind, runOn_readPostRun, hline]
      rfl
    case ok.some.restart =>
      refine ⟨.ok (), afterLines input 1,
        [.took (lineAt input 0), (Message.waitingForNewCode true).act], [.waitingForNewCode true],
        rfl, fun s acts => ?_⟩
      rw [runOn_bind, runOn_readPostRun, hline]
      dsimp only
      rw [runOn_send, Tape.write, List.append_assoc]
      rfl
    case ok.some.other =>
      obtain ⟨r, rest, added, messages, hadded, hrun⟩ := ih (afterLines input 1)
      refine ⟨r, rest, .took (lineAt input 0) :: (Message.heartbeat true text).act :: added,
        .heartbeat true text :: messages, ?_, fun s acts => ?_⟩
      · simp [List.filterMap_cons, Message.act, Act.written?, hadded]
      · rw [runOn_bind, runOn_readPostRun, hline]
        dsimp only
        rw [runOn_bind, runOn_send]
        dsimp only [Tape.write]
        rw [hrun, List.append_assoc, List.append_assoc]
        rfl

/-- What a session does after its program depends on `phase` and `input` only. -/
theorem runOn_afterProgram (phase : Phase) (input : List UInt8) :
    ∃ r phase' rest added, ∃ messages : List Message,
      added.filterMap Act.written? = messages.map Message.line ∧
      ∀ limits id steps acts,
        runOn (do if (← get).phase = .finished then postRunLoop Tape.endpoint)
          ⟨limits, phase, id, steps⟩ ⟨input, acts⟩ =
          ((r, ⟨limits, phase', id, steps⟩), ⟨rest, acts ++ added⟩) := by
  by_cases hphase : phase = .finished
  · obtain ⟨r, rest, added, messages, hadded, hrun⟩ :=
      runOn_answerCommands (input.length + 1) input
    refine ⟨r, if r = .ok () then .terminated else phase, rest, added, messages, hadded, ?_⟩
    intro limits id steps acts
    rw [runOn_bind, runOn_get]
    dsimp only
    rw [if_pos hphase]
    unfold postRunLoop
    rw [runOn_bind, runOn_linesLeft]
    dsimp only
    rw [runOn_bind, hrun]
    cases r <;> rfl
  · refine ⟨.ok (), phase, input, [], [], rfl, fun limits id steps acts => ?_⟩
    rw [runOn_bind, runOn_get]
    dsimp only
    rw [if_neg hphase, List.append_nil]
    rfl

/-! ## Whole sessions -/

/-- A session whose commands never stop its program tells `courseOf` of the program's pauses, where
`others`, the result and the phase depend on `source`, `maxSteps` and `post`, the input after the
program, only. -/
theorem runOn_serve_resumed (source : String) (maxSteps : Nat) (post : List UInt8) :
    ∃ (others : List Message) (r : Except ChannelError Unit) (phase : Phase),
      ∀ limits input id rest, limits.maxSteps = maxSteps → Receives limits input id source rest →
      (∀ i < pauseCount source maxSteps, Resumes (lineAt rest i)) →
      afterLines rest (pauseCount source maxSteps) = post →
      ∃ t, runOn (serve Tape.endpoint) (new limits) ⟨input, []⟩ =
          ((r, ⟨limits, phase, some id, pauseCount source maxSteps⟩), t) ∧
        t.sent = (courseOf limits (pausesOf source maxSteps) others).map Message.line := by
  obtain ⟨closing, phase, hexecute⟩ := runOn_execute_resumed source maxSteps
  obtain ⟨r, phase', left, added, messages, hadded, hafter⟩ := runOn_afterProgram phase post
  refine ⟨closing ++ messages, r, phase', ?_⟩
  rintro limits input id rest hsteps hreceives hresume rfl
  obtain ⟨acts, hacts, hserve⟩ := hreceives.runOn_serve
  have hrun : runOn (serve Tape.endpoint) (new limits) ⟨input, []⟩ =
      ((r, ⟨limits, phase', some id, pauseCount source maxSteps⟩),
        ⟨left, acts ++ exchanges limits (pausesOf source maxSteps) rest ++
          closing.map Message.act ++ added⟩) := by
    rw [hserve, runOn_bind, hexecute limits (some id) rest hsteps hresume acts]
    exact hafter limits (some id) (pauseCount source maxSteps) _
  refine ⟨_, hrun, ?_⟩
  rw [Tape.sent, List.filterMap_append, List.filterMap_append, List.filterMap_append, hacts,
    written_exchanges, written_acts, hadded, courseOf]
  simp [Function.comp_def]

/-- If no write fails, a session on a channel in memory does what it does on a tape. -/
theorem runOn_serve_wire {limits : Limits} {input : List UInt8} {writesLeft : Option Nat}
    (h : ∀ cause, (runOn (serve Wire.endpoint) (new limits) (Wire.ofInput input writesLeft)).1.1 ≠
      .error (.write cause)) {r : Except ChannelError Unit} {s : Session} {t : Tape}
    (htape : runOn (serve Tape.endpoint) (new limits) ⟨input, []⟩ = ((r, s), t)) :
    ∃ w, runOn (serve Wire.endpoint) (new limits) (Wire.ofInput input writesLeft) = ((r, s), w) ∧
      w.sent.toList = t.sent := by
  have hrecorded : (Wire.ofInput input writesLeft).Recorded ⟨input, []⟩ := ⟨rfl, rfl⟩
  rcases serve_mirrors (new limits) _ _ hrecorded with ⟨cause, hfail⟩ | ⟨hrun, -, hsent⟩
  · exact absurd hfail (h cause)
  · rw [htape] at hrun hsent
    exact ⟨_, Prod.ext hrun rfl, hsent⟩

/-- What such a session sends on a channel in memory is told by `courseOf`. -/
theorem Receives.exists_sent {limits : Limits} {input rest : List UInt8} {id source : String}
    (h : Receives limits input id source rest)
    (hresume : ∀ i < pauseCount source limits.maxSteps, Resumes (lineAt rest i))
    {writesLeft : Option Nat}
    (hwrites : ∀ cause,
      (runOn (serve Wire.endpoint) (new limits) (Wire.ofInput input writesLeft)).1.1 ≠
        .error (.write cause)) :
    ∃ others, ∀ {r s w},
      runOn (serve Wire.endpoint) (new limits) (Wire.ofInput input writesLeft) = ((r, s), w) →
      w.sent.toList =
        (courseOf limits (pausesOf source limits.maxSteps) others).map Message.line := by
  obtain ⟨others, _, _, hserve⟩ := runOn_serve_resumed source limits.maxSteps
    (afterLines rest (pauseCount source limits.maxSteps))
  obtain ⟨t, hrun, hsent⟩ := hserve limits input id rest rfl h hresume rfl
  obtain ⟨w', hw', hwt⟩ := runOn_serve_wire hwrites hrun
  refine ⟨others, fun hw => ?_⟩
  obtain ⟨-, rfl⟩ := Prod.mk.inj (hw'.symm.trans hw)
  exact hwt.trans hsent

/-- Sessions with the same `maxSteps`, program and input after it come to the same result, and
message by message they tell the same but for what is displayed, whichever commands let the program
go on. With the same `limits` they send the same lines. -/
theorem serve_display {limits limits' : Limits} (hsteps : limits'.maxSteps = limits.maxSteps)
    {input input' rest rest' : List UInt8} {id source : String}
    (hreceives : Receives limits input id source rest)
    (hreceives' : Receives limits' input' id source rest')
    (hresume : ∀ i < pauseCount source limits.maxSteps, Resumes (lineAt rest i))
    (hresume' : ∀ i < pauseCount source limits.maxSteps, Resumes (lineAt rest' i))
    (hpost : afterLines rest' (pauseCount source limits.maxSteps) =
      afterLines rest (pauseCount source limits.maxSteps))
    {writesLeft writesLeft' : Option Nat}
    (hwrites : ∀ cause,
      (runOn (serve Wire.endpoint) (new limits) (Wire.ofInput input writesLeft)).1.1 ≠
        .error (.write cause))
    (hwrites' : ∀ cause,
      (runOn (serve Wire.endpoint) (new limits') (Wire.ofInput input' writesLeft')).1.1 ≠
        .error (.write cause)) :
    ∃ r s w w' messages messages',
      runOn (serve Wire.endpoint) (new limits) (Wire.ofInput input writesLeft) = ((r, s), w) ∧
      runOn (serve Wire.endpoint) (new limits') (Wire.ofInput input' writesLeft') =
        ((r, { s with limits := limits' }), w') ∧
      w.sent.toList = messages.map Message.line ∧
      w'.sent.toList = messages'.map Message.line ∧
      List.Forall₂ Message.SameButDisplay messages messages' ∧
      s.steps = pauseCount source limits.maxSteps ∧
      (limits' = limits → w'.sent = w.sent) := by
  -- Both sessions tell `courseOf` of the same pauses, with the same `others`.
  obtain ⟨others, r, phase, hserve⟩ := runOn_serve_resumed source limits.maxSteps
    (afterLines rest (pauseCount source limits.maxSteps))
  obtain ⟨t, hrun, hsent⟩ := hserve limits input id rest rfl hreceives hresume rfl
  obtain ⟨t', hrun', hsent'⟩ := hserve limits' input' id rest' hsteps hreceives' hresume' hpost
  obtain ⟨w, hw, hwt⟩ := runOn_serve_wire hwrites hrun
  obtain ⟨w', hw', hwt'⟩ := runOn_serve_wire hwrites' hrun'
  refine ⟨r, _, w, w', _, _, hw, hw', hwt.trans hsent, hwt'.trans hsent',
    forall₂_courseOf limits limits' (pausesOf source limits.maxSteps) others, rfl, ?_⟩
  rintro rfl
  exact Array.toList_inj.1 (by rw [hwt, hwt', hsent, hsent'])

/-- Two sessions named `s` that run `x = 'abcd'` and `print(x)`. One is told to go on by `go` and
the other by `Step`. At the second pause the first shows the whole value and one character of the
output, and the second three characters of the value and all of the output. -/
theorem serve_display_one :
    let code : List UInt8 := [115, 10, 120, 32, 61, 32, 39, 97, 98, 99, 100, 39, 10, 112, 114, 105,
      110, 116, 40, 120, 41, 10, 61, 61, 61, 69, 78, 68, 95, 79, 70, 95, 67, 79, 68, 69, 61, 61, 61,
      10]
    ∃ r s w w' messages messages',
      runOn (serve Wire.endpoint) (new ⟨10, 1, 0⟩)
        (Wire.ofInput (code ++ [103, 111, 10, 103, 111, 10]) none) = ((r, s), w) ∧
      runOn (serve Wire.endpoint) (new ⟨10, 5, 3⟩)
        (Wire.ofInput (code ++ [83, 116, 101, 112, 10, 83, 116, 101, 112, 10]) none) =
          ((r, { s with limits := ⟨10, 5, 3⟩ }), w') ∧
      w.sent.toList = messages.map Message.line ∧ w'.sent.toList = messages'.map Message.line ∧
      List.Forall₂ Message.SameButDisplay messages messages' ∧ s.steps = 2 ∧
      w.sent.toList[2]? = some (Message.step ⟨2, "<source>", ⟨[("x", "'abcd'")]⟩, "\n"⟩).line ∧
      w'.sent.toList[2]? =
        some (Message.step ⟨2, "<source>", ⟨[("x", "'ab...")]⟩, "abcd\n"⟩).line := by
  intro code
  let p : Program :=
    ⟨[.assign (.name "x") (.str "abcd" ⟨1, 5⟩) ⟨1, 1⟩,
      .expr (.call (.name "print" ⟨2, 1⟩) [.name "x" ⟨2, 7⟩] [] ⟨2, 6⟩) ⟨2, 1⟩],
      ["x = 'abcd'", "print(x)"]⟩
  have hsource : Program.ofSource "x = 'abcd'\nprint(x)\n" = .ok p := by
    rw [Program.ofSource_of_lexemes (by cbv)]
    rfl
  have hcount : pauseCount "x = 'abcd'\nprint(x)\n" 10 = 2 := by
    rw [pauseCount, hsource]
    unfold p
    rfl
  have hgo : ∀ i < 2, Resumes (lineAt [103, 111, 10, 103, 111, 10] i) := by
    have hline : Resumes [103, 111, 10] := ⟨.unrecognized "go", rfl, by simp⟩
    intro i hi
    obtain rfl | rfl : i = 0 ∨ i = 1 := by omega
    all_goals exact hline
  have hstep : ∀ i < 2, Resumes (lineAt [83, 116, 101, 112, 10, 83, 116, 101, 112, 10] i) := by
    have hline : Resumes [83, 116, 101, 112, 10] := ⟨.step, rfl, by simp⟩
    intro i hi
    obtain rfl | rfl : i = 0 ∨ i = 1 := by omega
    all_goals exact hline
  have hreceives : Receives ⟨10, 1, 0⟩ (code ++ [103, 111, 10, 103, 111, 10]) "s"
      "x = 'abcd'\nprint(x)\n" [103, 111, 10, 103, 111, 10] := by
    unfold code
    exact ⟨_, _, rfl⟩
  have hreceives' : Receives ⟨10, 5, 3⟩
      (code ++ [83, 116, 101, 112, 10, 83, 116, 101, 112, 10]) "s" "x = 'abcd'\nprint(x)\n"
      [83, 116, 101, 112, 10, 83, 116, 101, 112, 10] := by
    unfold code
    exact ⟨_, _, rfl⟩
  have hne (limits : Limits) (rest : List UInt8) (cause : String) :
      (runOn (serve Wire.endpoint) (new limits) (Wire.ofInput (code ++ rest) none)).1.1 ≠
        .error (.write cause) := Tells.ne_write (serve_tells rfl) rfl cause
  have hresume : ∀ i < pauseCount "x = 'abcd'\nprint(x)\n" 10,
      Resumes (lineAt [103, 111, 10, 103, 111, 10] i) := by rwa [hcount]
  have hresume' : ∀ i < pauseCount "x = 'abcd'\nprint(x)\n" 10,
      Resumes (lineAt [83, 116, 101, 112, 10, 83, 116, 101, 112, 10] i) := by rwa [hcount]
  have hmax : (Limits.mk 10 5 3).maxSteps = (Limits.mk 10 1 0).maxSteps := rfl
  obtain ⟨r, s, w, w', messages, messages', hrun, hrun', hsent, hsent', hsame, hsteps, -⟩ :=
    serve_display hmax hreceives hreceives' hresume hresume' (by rw [hcount]; rfl)
      (hne _ _) (hne _ _)
  obtain ⟨others, hothers⟩ := hreceives.exists_sent hresume (hne _ _)
  obtain ⟨others', hothers'⟩ := hreceives'.exists_sent hresume' (hne _ _)
  have hevent : (pausesOf "x = 'abcd'\nprint(x)\n" 10)[1]?.map (eventAt ⟨10, 1, 0⟩) =
      some ⟨2, "<source>", ⟨[("x", "'abcd'")]⟩, "\n"⟩ := by
    rw [pausesOf, hsource]
    unfold p
    rfl
  have hevent' : (pausesOf "x = 'abcd'\nprint(x)\n" 10)[1]?.map (eventAt ⟨10, 5, 3⟩) =
      some ⟨2, "<source>", ⟨[("x", "'ab...")]⟩, "abcd\n"⟩ := by
    rw [pausesOf, hsource]
    unfold p
    rfl
  refine ⟨r, s, w, w', messages, messages', hrun, hrun', hsent, hsent', hsame,
    hsteps.trans hcount, ?_, ?_⟩
  · rw [hothers hrun, List.getElem?_map, getElem?_courseOf hevent, Option.map_some]
  · rw [hothers' hrun', List.getElem?_map, getElem?_courseOf hevent', Option.map_some]

end Session

end Stepper
