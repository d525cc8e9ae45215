import Stepper.Proofs.Execution.Abort
import Stepper.Proofs.Execution.Boundaries
import Stepper.Proofs.Execution.Window
import Stepper.Proofs.Session.Tape

/-!
# A session in lock step with its program

* `Resumes`, `Halts`: the lines at which a program goes on, and those at which it does not.
* `eventAt`, `exchanges`: what is told at a boundary of a program, and how telling and reading take
  turns.
* `Session.drive_lockstep`, `Session.runOn_execute`: a program that runs in a session pauses at the
  boundaries that it has by itself, until its commands or the session's steps run out.
* `Session.execute_lockstep`: so running a program tells of its boundaries, one line being read
  after each of them, and of its end.
-/

namespace Stepper

/-! ## The lines of an input -/

/-- What is left of `input` after `i` lines, as `Wire.splitLine` takes them. -/
def afterLines (input : List UInt8) : Nat → List UInt8
  | 0 => input
  | i + 1 => afterLines (Wire.splitLine input).2 i

/-- The bytes of line `i` of `input`, counted from zero; none after the end. -/
def lineAt (input : List UInt8) (i : Nat) : List UInt8 :=
  (Wire.splitLine (afterLines input i)).1

/-- The command that the line `bytes` gives: an error if it is no text, `none` if it is blank or the
input has ended. -/
def commandOf (bytes : List UInt8) : Except ChannelError (Option Command) :=
  (textOfLine bytes).map (·.bind Command.ofLine?)

/-- The line `bytes` has a command other than `stop`: the program goes on. -/
def Resumes (bytes : List UInt8) : Prop :=
  ∃ command, commandOf bytes = .ok (some command) ∧ command ≠ .stop

/-- The line `bytes` has the command `stop`, or none: it is blank, or the input has ended. -/
def Halts (bytes : List UInt8) : Prop :=
  commandOf bytes = .ok (some .stop) ∨ commandOf bytes = .ok none

/-- A program goes on at every line whose `commandWord`, the text in lower case without the blanks
around it, is neither empty nor `stop`. -/
theorem resumes_iff {bytes : List UInt8} : Resumes bytes ↔ ∃ text,
    textOfLine bytes = .ok (some text) ∧ commandWord text ≠ "" ∧ commandWord text ≠ "stop" := by
  unfold Resumes commandOf
  match textOfLine bytes with
  | .error e => simp [Except.map]
  | .ok none => simp [Except.map]
  | .ok (some text) =>
    simp only [Except.map, Option.bind_some, Except.ok.injEq, Option.some.injEq, exists_eq_left']
    unfold Command.ofLine?
    split <;> simp_all

theorem Resumes.exists_answer {bytes : List UInt8} (h : Resumes bytes) :
    ∃ c, commandOf bytes = .ok c ∧ Session.answerOf c ≠ .abort := by
  obtain ⟨command, hc, hstop⟩ := h
  refine ⟨_, hc, ?_⟩
  cases command with
  | stop => exact absurd rfl hstop
  | step | next | goOn | unrecognized _ => nofun

theorem Halts.exists_answer {bytes : List UInt8} (h : Halts bytes) :
    ∃ c, commandOf bytes = .ok c ∧ Session.answerOf c = .abort := by
  rcases h with hc | hc
  · exact ⟨_, hc, rfl⟩
  · exact ⟨_, hc, rfl⟩

/-! ## What is told -/

/-- What is told at `boundary`: its line, the names of its frame, and of everything printed the last
`limits.maxOutputChars` characters. -/
def eventAt (limits : Limits) (boundary : Pause) : StepEvent where
  line := boundary.line
  filename := sourceName
  vars := .capture boundary.machine.store limits.maxValueChars boundary.machine.frame.bindings
  output := lastChars limits.maxOutputChars boundary.machine.output.transcript

/-- Telling `message` is writing its line. -/
def Message.act (message : Message) : Act :=
  .wrote message.line

/-- What a session tells at the boundaries of a program, and the lines of the input that it takes in
turn: a `step` for each boundary, then one line. -/
def exchanges (limits : Limits) : List Pause → List UInt8 → List Act
  | [], _ => []
  | boundary :: rest, input =>
    (Message.step (eventAt limits boundary)).act :: .took (Wire.splitLine input).1 ::
      exchanges limits rest (Wire.splitLine input).2

/-- Of `exchanges`, the lines written are those of one `Message.step` for each boundary. -/
theorem written_exchanges (limits : Limits) (boundaries : List Pause) (input : List UInt8) :
    (exchanges limits boundaries input).filterMap Act.written? =
      boundaries.map fun b => (Message.step (eventAt limits b)).line := by
  induction boundaries generalizing input with
  | nil => rfl
  | cons b rest ih => simp [exchanges, List.filterMap_cons, Message.act, Act.written?, ih]

/-- What is told of `outcome`: `finished` with the whole `transcript`, an `error` with the
traceback, or nothing if a hook has ended the program. -/
def reported (program : Program) (outcome : Outcome) (m : Machine) : List Message :=
  match outcome with
  | .completed => [.finished true m.output.transcript]
  | .raised e => [.error ⟨.exception, (Traceback.ofException e).render program, none⟩]
  | .aborted | .unfinished => []

/-- The phase that `outcome` leaves the session in. -/
def Outcome.phase : Outcome → Phase
  | .completed => .finished
  | .raised _ | .aborted | .unfinished => .terminated

theorem written_acts (messages : List Message) :
    (messages.map Message.act).filterMap Act.written? = messages.map Message.line := by
  rw [← Act.written_wrote (messages.map Message.line), List.map_map]
  rfl

namespace Session

/-! ## A pause -/

theorem eventOf_eq_eventAt {limits : Limits} {pause boundary : Pause}
    (hline : pause.line = boundary.line)
    (hm : pause.machine.Alike (Output.Keeps limits.maxOutputChars) boundary.machine) :
    eventOf limits pause = eventAt limits boundary := by
  rw [eventOf, eventAt, hline, hm.store, Machine.frame, Machine.frame, hm.stack,
    hm.output.trim_window]

theorem runOn_readCommand (s : Session) (t : Tape) :
    runOn (onChannel Tape.endpoint.readCommand) s t =
      ((commandOf t.takeLine.1, s), t.takeLine.2) := by
  rw [onChannel_readCommand, runOn_bind, runOn_readLine, commandOf]
  cases textOfLine t.takeLine.1 <;> rfl

/-- At `maxSteps` pauses a session tells `maxStepsReached` and aborts without reading a command. -/
theorem runOn_pauseAt_of_le {s : Session} (h : s.limits.maxSteps ≤ s.steps) (pause : Pause)
    (t : Tape) :
    runOn (pauseAt Tape.endpoint pause) s t =
      ((.ok ⟨.abort, none⟩, s), t.write Message.maxStepsReached.line) := by
  unfold pauseAt
  rw [runOn_bind, runOn_get]
  dsimp only
  rw [if_pos h]
  rfl

/-- A pause below `maxSteps`: a `step` is told, line `0` of the input is taken, and its command `c`
answers. -/
theorem runOn_pauseAt {s : Session} (h : s.steps < s.limits.maxSteps) (pause : Pause)
    {input : List UInt8} {c : Option Command} (hc : commandOf (lineAt input 0) = .ok c)
    (acts : List Act) :
    runOn (pauseAt Tape.endpoint pause) s ⟨input, acts⟩ =
      ((.ok ⟨answerOf c, some s.limits.maxOutputChars⟩,
        { s with
          phase := if answerOf c ≠ .abort then .running else .paused
          steps := s.steps + 1 }),
        ⟨(Wire.splitLine input).2, acts ++
          [(Message.step (eventOf s.limits pause)).act, .took (lineAt input 0)]⟩) := by
  have htape : ((Tape.mk input acts).write (Message.step (eventOf s.limits pause)).line).takeLine =
      (lineAt input 0, ⟨(Wire.splitLine input).2, acts ++
        [(Message.step (eventOf s.limits pause)).act, .took (lineAt input 0)]⟩) := by
    rw [List.append_cons, Tape.takeLine]
    rfl
  unfold pauseAt
  rw [runOn_bind, runOn_get]
  dsimp only
  rw [if_neg (Nat.not_le_of_lt h), runOn_bind, runOn_setPhase]
  simp only [runOn_bind, runOn_send, runOn_modify, runOn_readCommand]
  rw [htape, hc]
  dsimp only
  split <;> rfl

/-! ## Running a program -/

/-- How a program ends that is told about at the pauses `told` and may go on after `n` of them, with
the messages that follow: the command after pause `n + 1` has ended it (`halted`), the session has
made all its pauses (`stopped`), or it ends by itself as `alone` does, the execution without a
session (`ended`). -/
inductive RunEnd (n : Nat) (alone : Execution (Outcome × Machine)) (told : List Pause) :
    Outcome × Machine → List Message → Prop
  | halted (m : Machine) : told.length = n + 1 → RunEnd n alone told (.aborted, m) []
  | stopped (m : Machine) : told.length ≤ n → told.length < alone.pauses.length →
      RunEnd n alone told (.aborted, m) [.maxStepsReached]
  | ended {result : Outcome × Machine} : told.length ≤ n → told = alone.pauses →
      SameResult Program.SameTranscript result (alone.drive watching ()).1 →
      RunEnd n alone told result []

theorem RunEnd.cons {n : Nat} {p : Pause} {resume : Reply → Execution (Outcome × Machine)}
    {told : List Pause} {result : Outcome × Machine} {closing : List Message}
    (h : RunEnd n (resume ⟨.step, none⟩) told result closing) :
    RunEnd (n + 1) (.paused p resume) (p :: told) result closing := by
  have hpauses : (Execution.paused p resume).pauses = p :: (resume ⟨.step, none⟩).pauses := by
    rw [Execution.pauses, Execution.history_paused]
    rfl
  cases h with
  | halted m hlength => exact .halted m (by simpa using hlength)
  | stopped m hn hlength => exact .stopped m (by simpa using hn) (by simpa [hpauses] using hlength)
  | ended hn htold hresult => exact .ended (by simpa using hn) (by rw [hpauses, htold]) hresult

/-- A program that runs in a session, `x`, pauses as `y`, the one left alone, for the first
`min (maxSteps - steps) (n + 1)` pauses: as long as the session makes pauses and the commands let it
go on. -/
theorem drive_lockstep {keep : Nat} {x y : Execution (Outcome × Machine)}
    (hxy : x.InStep (Output.Keeps keep) (SameResult (Output.Keeps keep)) y)
    (hx : x.Obeys fun r => r.1 = .aborted) {s : Session} (hs : s.limits.maxOutputChars = keep)
    {input : List UInt8} {n : Nat} (hresume : ∀ i < n, Resumes (lineAt input i))
    (hhalt : n < min y.pauses.length (s.limits.maxSteps - s.steps) → Halts (lineAt input n)) :
    ∃ told result closing phase,
      told = y.pauses.take (min (s.limits.maxSteps - s.steps) (n + 1)) ∧
      RunEnd n y told result closing ∧
      ∀ acts, runOn (x.drive (pauseAt Tape.endpoint)) s ⟨input, acts⟩ =
        ((.ok result, { s with phase := phase, steps := s.steps + told.length }),
          ⟨afterLines input told.length,
            acts ++ exchanges s.limits told input ++ closing.map Message.act⟩) := by
  -- Along `hxy`, with the session and the input as they are at each pause: one command and one step
  -- of the count are used up, so `n` and `maxSteps - steps` both go down.
  induction hxy generalizing s input n with
  | @ended a b hab =>
    refine ⟨[], a, [], s.phase, by simp [Execution.pauses], .ended (Nat.zero_le _) rfl ?_, ?_⟩
    · exact ⟨hab.1, hab.2.store, hab.2.stack, hab.2.output.transcript⟩
    · intro acts
      simp only [exchanges, List.map_nil, List.append_nil]
      rfl
  | @paused p p' resume resume' hline hm hgo ih =>
    have hpauses : (Execution.paused p' resume').pauses =
        p' :: (resume' ⟨.step, none⟩).pauses := by
      rw [Execution.pauses, Execution.history_paused]
      rfl
    obtain ⟨hstop, hobeys⟩ : _ ∧ _ := by
      cases hx with
      | paused hstop hobeys => exact ⟨hstop, hobeys⟩
    by_cases hfull : s.limits.maxSteps ≤ s.steps
    · -- The session has made all its pauses.
      obtain ⟨⟨outcome, m⟩, rfl, hresume⟩ := hstop ⟨.abort, none⟩ rfl
      refine ⟨[], (.aborted, m), [.maxStepsReached], s.phase, ?_, ?_, fun acts => ?_⟩
      · rw [Nat.sub_eq_zero_of_le hfull, Nat.zero_min, List.take_zero]
      · exact .stopped m (Nat.zero_le _) (by simp [hpauses])
      · rw [Execution.drive, runOn_bind, runOn_pauseAt_of_le hfull]
        dsimp only
        rw [hresume]
        simp only [exchanges, List.append_nil]
        rfl
    · have hlt : s.steps < s.limits.maxSteps := Nat.lt_of_not_le hfull
      have hevent : eventOf s.limits p = eventAt s.limits p' := by
        subst hs; exact eventOf_eq_eventAt hline hm
      cases n with
      | zero =>
        -- The command ends the program.
        obtain ⟨c, hc, habort⟩ := (hhalt (by simp [hpauses]; omega)).exists_answer
        obtain ⟨⟨outcome, m⟩, rfl, hresume⟩ :=
          hstop ⟨answerOf c, some s.limits.maxOutputChars⟩ habort
        refine ⟨[p'], (.aborted, m), [], if answerOf c ≠ .abort then .running else .paused, ?_,
          .halted m rfl, fun acts => ?_⟩
        · rw [Nat.min_eq_right (by omega), hpauses]
          rfl
        · rw [Execution.drive, runOn_bind, runOn_pauseAt hlt p hc]
          dsimp only
          rw [hresume, hevent]
          simp only [exchanges, List.map_nil, List.append_nil]
          rfl
      | succ n =>
        -- The command lets the program go on: the rest of it runs on the input without its first
        -- line.
        obtain ⟨c, hc, habort⟩ := (hresume 0 (Nat.succ_pos n)).exists_answer
        have hkeep : Output.Keeps keep (p.machine.output.trim keep) p'.machine.output :=
          hm.output.trim
        subst hs
        have hresume' : ∀ i < n, Resumes (lineAt (Wire.splitLine input).2 i) := fun i hi =>
          hresume (i + 1) (by omega)
        have hhalt' : n < min (resume' ⟨.step, none⟩).pauses.length
            (s.limits.maxSteps - (s.steps + 1)) → Halts (lineAt (Wire.splitLine input).2 n) :=
          fun hn => hhalt (by rw [hpauses, List.length_cons]; omega)
        obtain ⟨told, result, closing, phase, htold, hend, hrun⟩ :=
          ih ⟨answerOf c, some s.limits.maxOutputChars⟩ ⟨.step, none⟩ habort (by simp) hkeep
            (hobeys _ habort) (s := { s with
              phase := if answerOf c ≠ .abort then .running else .paused
              steps := s.steps + 1 }) rfl hresume' hhalt'
        refine ⟨p' :: told, result, closing, phase, ?_, hend.cons, fun acts => ?_⟩
        · rw [hpauses, htold, show min (s.limits.maxSteps - s.steps) (n + 1 + 1) =
            min (s.limits.maxSteps - (s.steps + 1)) (n + 1) + 1 by omega, List.take_succ_cons]
        · rw [Execution.drive, runOn_bind, runOn_pauseAt hlt p hc]
          dsimp only
          rw [hrun, hevent]
          simp only [exchanges, List.length_cons, List.append_assoc, List.cons_append,
            List.nil_append, Nat.add_assoc, Nat.add_comm 1]
          rfl

theorem runOn_report (program : Program) (outcome : Outcome) (m : Machine) {s : Session}
    (hs : s.phase = .terminated) (input : List UInt8) (acts : List Act) :
    runOn (report Tape.endpoint program outcome m) s ⟨input, acts⟩ =
      ((.ok (), { s with phase := outcome.phase }),
        ⟨input, acts ++ (reported program outcome m).map Message.act⟩) := by
  obtain ⟨limits, phase, id, steps⟩ := s
  obtain rfl : phase = .terminated := hs
  cases outcome with
  | completed | raised _ => rfl
  | aborted | unfinished => rw [reported, List.map_nil, List.append_nil]; rfl

/-- Running a program on a tape (`execute`): the acts are `exchanges` for the pauses `told`, then
what `closing` and `reported` tell. -/
theorem runOn_execute {source : String} {program : Program}
    (hprogram : Program.ofSource source = .ok program) (s : Session) {input : List UInt8} {n : Nat}
    (hresume : ∀ i < n, Resumes (lineAt input i))
    (hhalt : n < min (program.run (s.limits.maxSteps + 1)).pauses.length
      (s.limits.maxSteps - s.steps) → Halts (lineAt input n)) :
    ∃ told outcome m closing,
      told = (program.run (s.limits.maxSteps + 1)).pauses.take
        (min (s.limits.maxSteps - s.steps) (n + 1)) ∧
      RunEnd n (program.run (s.limits.maxSteps + 1)) told (outcome, m) closing ∧
      ∀ acts, runOn (execute Tape.endpoint source) s ⟨input, acts⟩ =
        ((.ok (), { s with phase := outcome.phase, steps := s.steps + told.length }),
          ⟨afterLines input told.length, acts ++ exchanges s.limits told input ++
            (closing ++ reported program outcome m).map Message.act⟩) := by
  obtain ⟨told, ⟨outcome, m⟩, closing, phase, htold, hend, hrun⟩ :=
    drive_lockstep (program.run_inStep_keeps s.limits.maxOutputChars (s.limits.maxSteps + 1))
      (program.run_obeys _) (s := { s with phase := .running }) rfl hresume hhalt
  refine ⟨told, outcome, m, closing, htold, hend, fun acts => ?_⟩
  unfold execute
  rw [runOn_bind, runOn_setPhase]
  dsimp only
  rw [hprogram]
  simp only [runOn_bind, runOn_get, runOn_thenTerminate]
  rw [hrun]
  dsimp only
  rw [runOn_report program outcome m rfl, List.map_append, List.append_assoc]

/-! ## Lock step -/

/-- What is told of an end (`reported`) looks at the outcome and the transcript only, not at the
window of the output. -/
theorem reported_congr (program : Program) {r r' : Outcome × Machine}
    (h : SameResult Program.SameTranscript r r') :
    reported program r.1 r.2 = reported program r'.1 r'.2 := by
  obtain ⟨outcome, m⟩ := r
  obtain ⟨outcome', m'⟩ := r'
  obtain ⟨rfl, -, -, htranscript⟩ := h
  cases outcome with
  | completed => exact congrArg (fun text => [Message.finished true text]) htranscript
  | raised | aborted | unfinished => rfl

theorem RunEnd.length_le {n : Nat} {alone : Execution (Outcome × Machine)} {told : List Pause}
    {result : Outcome × Machine} {closing : List Message} (h : RunEnd n alone told result closing) :
    told.length ≤ n + 1 := by
  cases h <;> omega

/-- With at least as many commands as pauses (`alone.pauses.length ≤ n`), a program that was told
about at every pause has ended by itself. -/
theorem RunEnd.of_length_le {n : Nat} {alone : Execution (Outcome × Machine)} {told : List Pause}
    {result : Outcome × Machine} {closing : List Message} (h : RunEnd n alone told result closing)
    (htold : told = alone.pauses) (hn : alone.pauses.length ≤ n) :
    closing = [] ∧ SameResult Program.SameTranscript result (alone.drive watching ()).1 := by
  cases h with
  | halted _ hlength => rw [htold] at hlength; omega
  | stopped _ _ hlength => rw [htold] at hlength; omega
  | ended _ _ hresult => exact ⟨rfl, hresult⟩

/-- Nothing that is told of the end of a program is a `step`. -/
theorem RunEnd.kind_ne_step {n : Nat} {alone : Execution (Outcome × Machine)} {told : List Pause}
    {outcome : Outcome} {m : Machine} {closing : List Message}
    (h : RunEnd n alone told (outcome, m) closing) (program : Program) :
    ∀ message ∈ closing ++ reported program outcome m, message.kind ≠ "step" := by
  cases h with
  | halted | stopped => simp [reported, Message.kind, Message.maxStepsReached]
  | ended => cases outcome <;> simp [reported, Message.kind]

/-- On an input whose first `n` lines let the program go on and whose line `n` halts it, a session
that has made `s.steps` pauses makes `min boundaryCount (min (maxSteps - s.steps) (n + 1))` more:
event `i` is that of `program.boundary? i`, one line is read for each, and the rest of the input is
left. If the program could end by itself, `closing` is what `reported` tells; and on a channel in
memory the same is written, or a write has failed. -/
theorem execute_lockstep {source : String} {program : Program}
    (hprogram : Program.ofSource source = .ok program) (s : Session) {input : List UInt8} {n : Nat}
    (hresume : ∀ i < n, Resumes (lineAt input i)) (hhalt : Halts (lineAt input n)) :
    ∃ (told : List Pause) (closing : List Message) (final : Session),
      (told.length : ℕ∞) =
        min program.boundaryCount (min (s.limits.maxSteps - s.steps) (n + 1) : Nat) ∧
      (∀ i < told.length, told[i]? = program.boundary? i) ∧
      (∀ message ∈ closing, message.kind ≠ "step") ∧
      (program.boundaryCount ≤ (min (s.limits.maxSteps - s.steps) n : Nat) →
        ∀ outcome m, program.Ends watching () outcome m → closing = reported program outcome m) ∧
      final.steps = s.steps + told.length ∧
      (∀ acts, runOn (execute Tape.endpoint source) s ⟨input, acts⟩ =
        ((.ok (), final), ⟨afterLines input told.length,
          acts ++ exchanges s.limits told input ++ closing.map Message.act⟩)) ∧
      (∀ w : Wire, w.unread = input →
        (∃ cause, (runOn (execute Wire.endpoint source) s w).1.1 = .error (.write cause)) ∨
        ∃ w', runOn (execute Wire.endpoint source) s w = ((.ok (), final), w') ∧
          w'.unread = afterLines input told.length ∧
          w'.sent.toList = w.sent.toList ++
            (told.map fun b => (Message.step (eventAt s.limits b)).line) ++
            closing.map Message.line) := by
  obtain ⟨told, outcome, m, closing, htold, hend, hrun⟩ :=
    runOn_execute hprogram s hresume (fun _ => hhalt)
  refine ⟨told, closing ++ reported program outcome m, _, ?_, ?_, hend.kind_ne_step program, ?_,
    rfl, hrun, fun w hw => ?_⟩
  · have hle : min (s.limits.maxSteps - s.steps) (n + 1) ≤ s.limits.maxSteps + 1 := by omega
    rw [Program.min_boundaryCount hle, htold, List.length_take, Nat.min_comm]
  · intro i hi
    rw [htold, List.length_take] at hi
    have hlt : i < s.limits.maxSteps + 1 := by omega
    rw [Program.boundary?_eq hlt, htold, List.getElem?_take_of_lt (by omega)]
  · -- Steps and commands are enough for all boundaries, so the program has ended by itself.
    intro hcount outcome' m' hends
    have hlt : min (s.limits.maxSteps - s.steps) n < s.limits.maxSteps + 1 := by omega
    have hlength := Program.length_pauses_le hlt hcount
    rw [List.take_of_length_le (by omega)] at htold
    obtain ⟨rfl, hresult⟩ := hend.of_length_le htold (by omega)
    rw [Program.drive_of_ends hends (by omega)] at hresult
    exact reported_congr program hresult
  · rcases execute_mirrors source s w _ w.recorded_tape with h | ⟨h, hunread, hsent⟩
    · exact .inl h
    · rw [Wire.tape, hw, hrun] at h hunread hsent
      refine .inr ⟨_, Prod.ext h rfl, hunread, ?_⟩
      rw [hsent, Tape.sent, List.filterMap_append, List.filterMap_append, written_exchanges,
        written_acts, Act.written_wrote]

/-- The command `go` lets `print('ab')` go on, and `stop` is left on the tape: the program has
ended. -/
theorem execute_lockstep_print :
    ∃ boundary final, runOn (execute Tape.endpoint "print('ab')") (new ⟨10, 1, 0⟩)
        ⟨[103, 111, 10, 115, 116, 111, 112, 10], []⟩ =
      ((.ok (), final), ⟨[115, 116, 111, 112, 10],
        [(Message.step (eventAt ⟨10, 1, 0⟩ boundary)).act, .took [103, 111, 10],
          (Message.finished true "ab\n").act]⟩) := by
  have hgo : commandOf (lineAt [103, 111, 10, 115, 116, 111, 112, 10] 0) =
      .ok (some (.unrecognized "go")) := rfl
  have hstop : commandOf (lineAt [103, 111, 10, 115, 116, 111, 112, 10] 1) =
      .ok (some .stop) := rfl
  let p : Program := ⟨[.expr (.call (.name "print" ⟨1, 1⟩) [.str "ab" ⟨1, 7⟩] [] ⟨1, 6⟩) ⟨1, 1⟩],
    ["print('ab')"]⟩
  have hprogram : Program.ofSource "print('ab')" = .ok p := by
    rw [Program.ofSource_of_lexemes (by cbv)]
    rfl
  have hresume : ∀ i < 1, Resumes (lineAt [103, 111, 10, 115, 116, 111, 112, 10] i) := by
    intro i hi
    obtain rfl : i = 0 := by omega
    exact ⟨_, hgo, by simp⟩
  have hcount : p.boundaryCount = (1 : Nat) :=
    Program.boundaryCount_eq (show (p.run 2).pauses.length < 2 from Nat.lt_succ_self 1)
  have hends : p.Ends watching () .completed ((p.run 2).drive watching ()).1.2 :=
    ⟨by simp, 2, (), rfl⟩
  obtain ⟨told, closing, final, hlength, -, -, hend, -, hrun, -⟩ :=
    execute_lockstep hprogram (new ⟨10, 1, 0⟩) hresume (.inl hstop)
  obtain rfl : closing = [.finished true "ab\n"] := hend (by rw [hcount]; rfl) _ _ hends
  rw [hcount, min_eq_left (Nat.cast_le.2 (by decide))] at hlength
  obtain ⟨boundary, rfl⟩ : ∃ b, told = [b] := List.length_eq_one_iff.1 (by exact_mod_cast hlength)
  exact ⟨boundary, final, hrun []⟩

end Session

end Stepper
