import Stepper.Proofs.Execution.Abort
import Stepper.Proofs.Session.Telling

/-!
# The conversation of a session

* `Conversation`: the messages that a session with some number of steps may have told.
* `pauseAt_tells`, `drive_tells`, `execute_tells`, `serve_tells`: what each part of a session tells,
  and in which state it leaves the session.
* `serveReporting_conversation`: a whole session tells a conversation with as many steps as it has
  counted, whatever the input is and whenever writing starts to fail.
-/

namespace Stepper

/-- What may follow the steps of a program: the notice that stopped it, an `error`, or `finished`
with the echoes of `commands` and at most one message more. -/
inductive Epilogue : List Message → Prop
  | nothing : Epilogue []
  | stopped : Epilogue [.maxStepsReached]
  | raised (trace : String) : Epilogue [.error ⟨.exception, trace, none⟩]
  | failed (trace : String) (detail : Option String) : Epilogue [.error ⟨.fatal, trace, detail⟩]
  | finished (output : String) (commands : List String) :
      Epilogue (.finished true output :: commands.map (.heartbeat true))
  | waiting (output : String) (commands : List String) :
      Epilogue (.finished true output :: commands.map (.heartbeat true) ++
        [.waitingForNewCode true])
  | finishedFailed (output : String) (commands : List String) (trace : String)
      (detail : Option String) :
      Epilogue (.finished true output :: commands.map (.heartbeat true) ++
        [.error ⟨.fatal, trace, detail⟩])

/-- The messages of a session with as many steps as the number says: nothing, `ready` and an `error`
of the source, or `ready`, the steps and an `Epilogue`. -/
inductive Conversation : Nat → List Message → Prop
  | silent : Conversation 0 []
  | unfit (trace : String) : Conversation 0 [.ready true, .error ⟨.source, trace, none⟩]
  | stepped (events : List StepEvent) {epilogue : List Message} : Epilogue epilogue →
      Conversation events.length (.ready true :: events.map .step ++ epilogue)

/-- Before a `step` there are only steps and the message `ready`. -/
theorem Conversation.pairwise {steps : Nat} {messages : List Message}
    (h : Conversation steps messages) :
    messages.Pairwise fun a b => b.kind = "step" → a.kind = "step" ∨ a.kind = "ready" := by
  have hepilogue : ∀ epilogue, Epilogue epilogue → ∀ b ∈ epilogue, b.kind ≠ "step" := by
    intro epilogue h
    cases h <;> simp [Message.kind, Message.maxStepsReached, or_imp, forall_and]
  cases h with
  | silent => exact .nil
  | unfit => simp [Message.kind]
  | stepped events h =>
    simp only [List.cons_append, List.pairwise_cons, List.pairwise_append, List.pairwise_map]
    refine ⟨fun _ _ _ => .inr rfl, ?_, ?_, fun _ _ b hb hstep => ?_⟩
    · exact List.pairwise_of_forall fun _ _ _ => .inl rfl
    · exact List.pairwise_of_forall_mem_list fun _ _ b hb hstep =>
        absurd hstep (hepilogue _ h b hb)
    · exact absurd hstep (hepilogue _ h b hb)

namespace Session

/-- A session `s'` after `events`: it has counted them, and has not passed `maxSteps`. -/
structure Counted (s s' : Session) (events : List StepEvent) : Prop where
  limits : s'.limits = s.limits
  steps : s'.steps = s.steps + events.length
  bound : s'.steps ≤ s'.limits.maxSteps

theorem Counted.nil {s s' : Session} (hlimits : s'.limits = s.limits) (hsteps : s'.steps = s.steps)
    (hs : s.steps ≤ s.limits.maxSteps) : Counted s s' [] :=
  ⟨hlimits, hsteps, by rwa [hlimits, hsteps]⟩

theorem Counted.append {s s' s'' : Session} {events events' : List StepEvent}
    (h : Counted s s' events) (h' : Counted s' s'' events') :
    Counted s s'' (events ++ events') where
  limits := h'.limits.trans h.limits
  steps := by rw [h'.steps, h.steps, List.length_append, Nat.add_assoc]
  bound := h'.bound

/-! ## Running a program -/

/-- What has been told at a pause: a `step` that has been counted, nothing because of a failure, or
`maxStepsReached` with the answer `abort`. -/
inductive PauseTold (s : Session) : Except ChannelError Reply → Session → List Message → Prop
  | step {r : Except ChannelError Reply} {s' : Session} (e : StepEvent) :
      Counted s s' [e] → PauseTold s r s' [.step e]
  | failed {e : ChannelError} {s' : Session} : Counted s s' [] → PauseTold s (.error e) s' []
  | stopped : s.steps = s.limits.maxSteps → PauseTold s (.ok ⟨.abort, none⟩) s [.maxStepsReached]

theorem pauseAt_tells (pause : Pause) {s : Session} (hs : s.steps ≤ s.limits.maxSteps) :
    Tells (pauseAt Wire.endpoint pause) s (PauseTold s) := by
  unfold pauseAt
  refine .bind (.of_run (fun _ => rfl) ?_)
  dsimp only [List.nil_append]
  split
  · next h =>
    refine .bind (.send (.pure ?_) fun _ => .failed (.nil rfl rfl hs))
    exact .stopped (Nat.le_antisymm hs h)
  · next h =>
    have hcount : ∀ phase, Counted s { s with phase := phase, steps := s.steps + 1 }
        [eventOf s.limits pause] := fun _ => ⟨rfl, rfl, Nat.lt_of_not_le h⟩
    refine .bind (.setPhase (.bind (.send (.bind (.modify (.bind ?_))) fun _ => ?_)))
    · rw [onChannel_readCommand]
      refine .bind (.readLine (fun line => .pure ?_) fun _ => .step _ (hcount _))
      dsimp only
      split
      · exact .bind (.setPhase (.pure (.step _ (hcount _))))
      · exact .pure (.step _ (hcount _))
    · exact .failed (.nil rfl rfl hs)

/-- What a program has told until it ended: `events`, and perhaps `maxStepsReached`, which aborts
it. -/
def Walked (s : Session) (r : Except ChannelError (Outcome × Machine)) (s' : Session)
    (messages : List Message) : Prop :=
  ∃ events closing, messages = events.map .step ++ closing ∧ Counted s s' events ∧
    (closing = [] ∨ closing = [.maxStepsReached] ∧ s'.steps = s'.limits.maxSteps ∧
      ∃ m, r = .ok (.aborted, m))

/-- A program that `Obeys` its hook tells of one pause after the other, and of nothing after
`maxStepsReached`. -/
theorem drive_tells {x : Execution (Outcome × Machine)} (hx : x.Obeys fun r => r.1 = .aborted)
    {s : Session} (hs : s.steps ≤ s.limits.maxSteps) :
    Tells (x.drive (pauseAt Wire.endpoint)) s (Walked s) := by
  induction hx generalizing s with
  | ended => exact .pure ⟨[], [], rfl, .nil rfl rfl hs, .inl rfl⟩
  | @paused p resume hstop _ ih =>
    -- After a reply that aborts nothing is told; after any other one the induction goes on.
    have hgo : ∀ reply : Reply, ∀ s₁ : Session, s₁.steps ≤ s₁.limits.maxSteps →
        Tells ((resume reply).drive (pauseAt Wire.endpoint)) s₁ (Walked s₁) := by
      intro reply s₁ hs₁
      by_cases hr : reply.answer = .abort
      · obtain ⟨a, -, hresume⟩ := hstop reply hr
        rw [hresume]
        exact .pure ⟨[], [], rfl, .nil rfl rfl hs₁, .inl rfl⟩
      · exact ih reply hr hs₁
    refine .bind ((pauseAt_tells p hs).mono fun r s₁ messages h => ?_)
    cases h with
    | failed hcount => exact ⟨[], [], rfl, hcount, .inl rfl⟩
    | stopped hmax =>
      obtain ⟨a, ha, hresume⟩ := hstop ⟨.abort, none⟩ rfl
      dsimp only
      rw [hresume]
      obtain ⟨outcome, m⟩ := a
      obtain rfl : outcome = .aborted := ha
      exact .pure ⟨[], [.maxStepsReached], rfl, .nil rfl rfl hs, .inr ⟨rfl, hmax, m, rfl⟩⟩
    | @step r _ e hcount =>
      cases r with
      | error => exact ⟨[e], [], rfl, hcount, .inl rfl⟩
      | ok reply =>
        refine (hgo reply s₁ hcount.bound).mono fun r s' messages h => ?_
        obtain ⟨events, closing, rfl, hcount', hclosing⟩ := h
        exact ⟨e :: events, closing, rfl, hcount.append hcount', hclosing⟩

/-- How the session `s` stands after a program that told `events`, and the message of its end. -/
inductive Left (s : Session) :
    Except ChannelError Unit → List StepEvent → List Message → Prop
  | finished (events : List StepEvent) (output : String) :
      s.phase = .finished → Left s (.ok ()) events [.finished true output]
  | raised (events : List StepEvent) (trace : String) :
      s.phase = .terminated → Left s (.ok ()) events [.error ⟨.exception, trace, none⟩]
  | stopped (events : List StepEvent) : s.phase = .terminated →
      s.steps = s.limits.maxSteps → Left s (.ok ()) events [.maxStepsReached]
  | silent (r : Except ChannelError Unit) (events : List StepEvent) :
      s.phase = .terminated → Left s r events []
  | unfit (trace : String) :
      s.phase = .terminated → Left s (.ok ()) [] [.error ⟨.source, trace, none⟩]

theorem Left.exists_finished {s : Session} {r : Except ChannelError Unit} {events : List StepEvent}
    {closing : List Message} (h : Left s r events closing) (hs : s.phase = .finished) :
    ∃ output, closing = [.finished true output] := by
  cases h with
  | finished _ output => exact ⟨output, rfl⟩
  | raised _ _ h | stopped _ h | silent _ _ h | unfit _ h => rw [hs] at h; cases h

theorem Left.terminated {s : Session} {r : Except ChannelError Unit} {events : List StepEvent}
    {closing : List Message} (h : Left s r events closing) (hs : s.phase ≠ .finished) :
    s.phase = .terminated := by
  cases h with
  | finished _ _ h => exact absurd h hs
  | raised _ _ h | stopped _ h | silent _ _ h | unfit _ h => exact h

/-- The steps of a program, counted in `s'`, and how it has `Left` the session. -/
def Executed (s : Session) (r : Except ChannelError Unit) (s' : Session)
    (messages : List Message) : Prop :=
  ∃ events closing, messages = events.map .step ++ closing ∧ Counted s s' events ∧
    Left s' r events closing

/-- What `report` tells of the end of a program that has told nothing but `events`. -/
theorem report_tells (program : Program) (outcome : Outcome) (m : Machine) {s : Session}
    (hs : s.steps ≤ s.limits.maxSteps) (hphase : s.phase = .terminated) (events : List StepEvent) :
    Tells (report Wire.endpoint program outcome m) s fun r s' messages =>
      Counted s s' [] ∧ Left s' r events messages := by
  unfold report
  split
  · refine .bind (.send (.setPhase ?_) fun _ => ⟨.nil rfl rfl hs, .silent _ events hphase⟩)
    exact ⟨.nil rfl rfl hs, .finished events _ rfl⟩
  · exact .send ⟨.nil rfl rfl hs, .raised events _ hphase⟩ fun _ =>
      ⟨.nil rfl rfl hs, .silent _ events hphase⟩
  · exact .pure ⟨.nil rfl rfl hs, .silent _ events hphase⟩
  · exact .pure ⟨.nil rfl rfl hs, .silent _ events hphase⟩

theorem execute_tells (source : String) {s : Session} (hs : s.steps ≤ s.limits.maxSteps) :
    Tells (execute Wire.endpoint source) s (Executed s) := by
  unfold execute
  refine .bind (.setPhase ?_)
  cases Program.ofSource source with
  | error e =>
    have hcount : Counted s { s with phase := .terminated } [] := .nil rfl rfl hs
    refine .bind (.setPhase (.send ?_ fun _ => ?_))
    · exact ⟨[], _, rfl, hcount, .unfit _ rfl⟩
    · exact ⟨[], [], rfl, hcount, .silent _ _ rfl⟩
  | ok program =>
    refine .bind (.of_run (fun _ => rfl) ?_)
    have hdrive := drive_tells (s := { s with phase := .running })
      (program.run_obeys (s.limits.maxSteps + 1)) hs
    refine .bind (.thenTerminate (hdrive.mono fun r s₁ messages h => ?_))
    obtain ⟨events, closing, rfl, hcount, hclosing⟩ := h
    have hcount : Counted s { s₁ with phase := .terminated } events :=
      ⟨hcount.limits, hcount.steps, hcount.bound⟩
    obtain rfl | ⟨rfl, hmax, m, rfl⟩ := hclosing
    · match r with
      | .error e => exact ⟨events, [], rfl, hcount, .silent _ _ rfl⟩
      | .ok (outcome, m) =>
        have htold := report_tells program outcome m hcount.bound rfl events
        refine htold.mono fun r s' messages h => ?_
        exact ⟨events, messages, by simp, by simpa using hcount.append h.1, h.2⟩
    · exact .pure ⟨events, _, by simp, hcount, .stopped _ rfl hmax⟩

/-! ## The other parts -/

theorem handshake_tells {s : Session} :
    Tells (handshake Wire.endpoint) s fun _ s' messages =>
      s'.limits = s.limits ∧ s'.steps = s.steps ∧ (messages = [] ∨ messages = [.ready true]) := by
  unfold handshake
  refine .bind (.send (.setPhase ?_) fun _ => ?_)
  · exact ⟨rfl, rfl, .inr rfl⟩
  · exact ⟨rfl, rfl, .inl rfl⟩

/-- The echoes of `commands`, and perhaps the call for new code; the session stays as it is. -/
theorem answerCommands_tells (rounds : Nat) {s : Session} :
    Tells (answerCommands Wire.endpoint rounds) s fun r s' messages =>
      s' = s ∧ ∃ commands : List String, messages = commands.map (.heartbeat true) ∨
        messages = commands.map (.heartbeat true) ++ [.waitingForNewCode true] ∧ r = .ok () := by
  induction rounds with
  | zero => exact .pure ⟨rfl, [], .inl rfl⟩
  | succ rounds ih =>
    unfold answerCommands
    rw [onChannel_readPostRun]
    refine .bind (.bind (.readLine (fun line => .pure ?_) fun _ => ⟨rfl, [], .inl rfl⟩))
    dsimp only
    split
    · exact .pure ⟨rfl, [], .inl rfl⟩
    · exact .pure ⟨rfl, [], .inl rfl⟩
    · exact .send ⟨rfl, [], .inr ⟨rfl, rfl⟩⟩ fun _ => ⟨rfl, [], .inl rfl⟩
    · next text _ =>
      refine .bind (.send (ih.mono fun r s' messages h => ?_) fun _ => ⟨rfl, [], .inl rfl⟩)
      obtain ⟨rfl, commands, rfl | ⟨rfl, rfl⟩⟩ := h
      · exact ⟨rfl, text :: commands, .inl rfl⟩
      · exact ⟨rfl, text :: commands, .inr ⟨rfl, rfl⟩⟩

theorem codeLines_tells (rounds : Nat) {s : Session} :
    Tells (codeLines Wire.endpoint rounds) s fun _ s' messages => s' = s ∧ messages = [] := by
  induction rounds with
  | zero => exact .pure ⟨rfl, rfl⟩
  | succ rounds ih =>
    unfold codeLines
    refine .bind (.readLine (fun line => ?_) fun _ => ⟨rfl, rfl⟩)
    dsimp only
    split
    · exact .pure ⟨rfl, rfl⟩
    · split
      · exact .pure ⟨rfl, rfl⟩
      · refine .bind (ih.mono fun r s' messages h => ?_)
        obtain ⟨rfl, rfl⟩ := h
        cases r with
        | error => exact ⟨rfl, rfl⟩
        | ok lines => exact .pure ⟨rfl, rfl⟩

theorem collectCode_tells {s : Session} :
    Tells (collectCode Wire.endpoint) s fun r s' messages =>
      s' = (match r with
        | .ok _ => { s with phase := .running }
        | .error _ => s) ∧ messages = [] := by
  unfold collectCode
  refine .bind (.linesLeft fun n => .bind ((codeLines_tells (n + 1)).mono ?_))
  rintro r s' messages ⟨rfl, rfl⟩
  cases r with
  | error => exact ⟨rfl, rfl⟩
  | ok lines => exact .bind (.setPhase (.pure ⟨rfl, rfl⟩))

theorem receiveSessionId_tells {s : Session} :
    Tells (receiveSessionId Wire.endpoint) s fun r s' messages =>
      s'.limits = s.limits ∧ s'.steps = s.steps ∧ messages = [] ∧
        (r = .ok none → s'.phase = .terminated) := by
  unfold receiveSessionId
  refine .bind (.readLine (fun line => ?_) fun _ => ⟨rfl, rfl, rfl, nofun⟩)
  refine .bind (.modify (.bind (.setPhase (.pure ⟨rfl, rfl, rfl, fun h => ?_⟩))))
  rw [Except.ok.inj h]
  rfl

theorem postRunLoop_tells {s : Session} :
    Tells (postRunLoop Wire.endpoint) s fun r s' messages =>
      s'.limits = s.limits ∧ s'.steps = s.steps ∧ (r = .ok () → s'.phase = .terminated) ∧
        ∃ commands : List String, messages = commands.map (.heartbeat true) ∨
          messages = commands.map (.heartbeat true) ++ [.waitingForNewCode true] ∧ r = .ok () := by
  unfold postRunLoop
  refine .bind (.linesLeft fun n => .bind ((answerCommands_tells (n + 1)).mono ?_))
  rintro r s' messages ⟨rfl, h⟩
  cases r with
  | error e => exact ⟨rfl, rfl, nofun, h⟩
  | ok u => exact .setPhase ⟨rfl, rfl, fun _ => rfl, by simpa using h⟩

/-- A `Conversation` that the session `s` has had without telling of a failure. If it has failed to
read (`.error (.read cause)`), that may still be told. -/
structure Served (s : Session) (r : Except ChannelError Unit) (messages : List Message) :
    Prop where
  conversation : Conversation s.steps messages
  bound : s.steps ≤ s.limits.maxSteps
  stopped : ∀ text, .info text ∈ messages → s.steps = s.limits.maxSteps
  quiet : ∀ e, .error e ∈ messages → e.kind ≠ .fatal
  terminated : r = .ok () → s.phase = .terminated
  unread : ∀ cause, r = .error (.read cause) → ∀ trace detail,
    Conversation s.steps (messages ++ [.error ⟨.fatal, trace, detail⟩])

/-- A session that has told `ready` and no more. -/
theorem Served.of_ready {s : Session} {r : Except ChannelError Unit} (hs : s.steps = 0)
    (hterminated : r = .ok () → s.phase = .terminated) : Served s r [.ready true] where
  conversation := by rw [hs]; exact .stepped [] .nothing
  bound := by omega
  stopped := by simp
  quiet := by simp
  terminated := hterminated
  unread _ _ trace detail := by rw [hs]; exact .stepped [] (.failed trace detail)

/-- A session whose program has ended, as `Left` says, and that does nothing more. -/
theorem Served.of_left {s s' : Session} {r : Except ChannelError Unit} {events : List StepEvent}
    {closing : List Message} (hcount : Counted s s' events) (hs : s.steps = 0)
    (hleft : Left s' r events closing) (hphase : r = .ok () → s'.phase = .terminated) :
    Served s' r (.ready true :: (events.map .step ++ closing)) := by
  have hsteps : s'.steps = events.length := by rw [hcount.steps, hs, Nat.zero_add]
  have hbound := hcount.bound
  cases hleft with
  | finished _ _ h => rw [hphase rfl] at h; cases h
  | raised _ trace =>
    refine ⟨?_, hbound, by simp, by simp, hphase, nofun⟩
    rw [hsteps]; exact .stepped events (.raised trace)
  | stopped _ _ hmax =>
    refine ⟨?_, hbound, fun _ _ => hmax, by simp [Message.maxStepsReached], hphase, nofun⟩
    rw [hsteps]; exact .stepped events .stopped
  | silent =>
    refine ⟨?_, hbound, by simp, by simp, hphase, fun _ _ trace detail => ?_⟩
    · rw [hsteps]; exact .stepped events .nothing
    · simpa [hsteps] using Conversation.stepped events (.failed trace detail)
  | unfit trace =>
    refine ⟨?_, hbound, by simp, by simp, hphase, nofun⟩
    rw [hsteps]; exact .unfit trace

/-- A session that has told `finished` and then answered `commands`. -/
theorem Served.of_finished {s s' : Session} {r : Except ChannelError Unit}
    {events : List StepEvent} {answers : List Message} (output : String)
    (hcount : Counted s s' events) (hs : s.steps = 0) (hphase : r = .ok () → s'.phase = .terminated)
    (h : ∃ commands : List String, answers = commands.map (.heartbeat true) ∨
      answers = commands.map (.heartbeat true) ++ [.waitingForNewCode true] ∧ r = .ok ()) :
    Served s' r (.ready true :: (events.map .step ++ .finished true output :: answers)) := by
  have hsteps : s'.steps = events.length := by rw [hcount.steps, hs, Nat.zero_add]
  obtain ⟨commands, rfl | ⟨rfl, rfl⟩⟩ := h
  · refine ⟨?_, hcount.bound, by simp, by simp, hphase, fun _ _ trace detail => ?_⟩
    · rw [hsteps]; exact .stepped events (.finished output commands)
    · simpa [hsteps] using
        Conversation.stepped events (.finishedFailed output commands trace detail)
  · refine ⟨?_, hcount.bound, by simp, by simp, hphase, nofun⟩
    rw [hsteps]; exact .stepped events (.waiting output commands)

theorem serve_tells {s : Session} (hs : s.steps = 0) :
    Tells (serve Wire.endpoint) s fun r s' messages =>
      s'.limits = s.limits ∧ Served s' r messages := by
  -- A failure to write can come first of all, before anything is told.
  have hsilent : ∀ cause, Served s (.error (.write cause)) [] := fun _ =>
    ⟨by rw [hs]; exact .silent, by omega, by simp, by simp, nofun, nofun⟩
  unfold serve handshake
  refine .bind (.bind (.send (.setPhase ?_) fun _ => ⟨rfl, hsilent _⟩))
  refine .bind (receiveSessionId_tells.mono fun r s₁ messages h => ?_)
  obtain ⟨hlimits, hsteps, rfl, hnone⟩ := h
  replace hsteps : s₁.steps = 0 := hsteps.trans hs
  match r with
  | .error e => exact ⟨hlimits, .of_ready hsteps nofun⟩
  | .ok none => exact .pure ⟨hlimits, .of_ready hsteps fun _ => hnone rfl⟩
  | .ok (some id) =>
    refine .bind (collectCode_tells.mono fun r s₂ messages h => ?_)
    obtain ⟨rfl, rfl⟩ := h
    match r with
    | .error e => exact ⟨hlimits, .of_ready hsteps nofun⟩
    | .ok source =>
      dsimp only
      refine .bind ((execute_tells source (by dsimp only; omega)).mono fun r s₃ messages h => ?_)
      obtain ⟨events, closing, rfl, hcount, hleft⟩ := h
      have hlimits₃ := hcount.limits.trans hlimits
      match r with
      | .error e => exact ⟨hlimits₃, .of_left hcount hsteps hleft nofun⟩
      | .ok () =>
        refine .bind (.of_run (fun _ => rfl) ?_)
        dsimp only
        -- Commands are answered only after a program that has come to its end.
        by_cases hphase : s₃.phase = .finished
        · rw [if_pos hphase]
          obtain ⟨output, rfl⟩ := hleft.exists_finished hphase
          refine (postRunLoop_tells (s := s₃)).mono fun r s' messages h => ?_
          obtain ⟨hlimits₄, hsteps₄, hterminated, hmessages⟩ := h
          have hcount : Counted { s₁ with phase := .running } s' events := by
            simpa using hcount.append (.nil hlimits₄ hsteps₄ hcount.bound)
          refine ⟨hlimits₄.trans hlimits₃, ?_⟩
          simpa using Served.of_finished output hcount hsteps hterminated hmessages
        · rw [if_neg hphase]
          refine .pure ⟨hlimits₃, ?_⟩
          simpa using Served.of_left hcount hsteps hleft fun _ => hleft.terminated hphase

/-- A failure is told, or it cannot be told; either way the phase is then `terminated`. -/
theorem reportFailure_tells (trace text : String) {s : Session} :
    Tells (reportFailure Wire.endpoint trace text) s fun r s' messages =>
      r = .ok () ∧ s' = { s with phase := .terminated } ∧
        (messages = [] ∨ messages = [.error ⟨.fatal, trace, some text⟩]) := by
  have hrun : ∀ w, runOn (reportFailure Wire.endpoint trace text) s w =
      ((.ok (), { s with phase := .terminated }),
        (runOn (send Wire.endpoint (.error ⟨.fatal, trace, some text⟩)) s w).2) := by
    rintro ⟨unread, sent, _ | _ | n⟩ <;> rfl
  have htells : Tells (send Wire.endpoint (.error ⟨.fatal, trace, some text⟩)) s
      fun _ _ messages => messages = [] ∨ messages = [.error ⟨.fatal, trace, some text⟩] :=
    .send (.inr rfl) fun _ => .inl rfl
  intro w
  obtain ⟨r, s', w', messages, hsend, hlater, -, htold⟩ := htells w
  exact ⟨.ok (), _, w', messages, by rw [hrun, hsend], hlater, nofun, rfl, rfl, htold⟩

theorem reportFatal_tells (e : ChannelError) {s : Session} :
    Tells (reportFatal Wire.endpoint e) s fun r s' messages =>
      r = .ok () ∧ s' = { s with phase := .terminated } ∧
        (messages = [] ∨ messages = [.error ⟨.fatal, e.trace, some e.message⟩]) :=
  reportFailure_tells e.trace e.message

/-- Whatever `input` is and whenever writing starts to fail (`writesLeft`), the messages of a
session are a `Conversation` with `s.steps` steps, at most `maxSteps`. An `info` only comes at
`maxSteps`; an `error` of kind `fatal` is the last message, and the session failed to read; before a
`step` there are only steps and `ready`; and the phase is `terminated`. -/
theorem serveReporting_conversation (limits : Limits) (input : List UInt8)
    (writesLeft : Option Nat) :
    ∃ r s w messages,
      runOn (serveReporting Wire.endpoint) (new limits) (Wire.ofInput input writesLeft) =
        ((r, s), w) ∧
      (runOn (serve Wire.endpoint) (new limits) (Wire.ofInput input writesLeft)).1.1 = r ∧
      w.sent.toList = messages.map Message.line ∧
      Conversation s.steps messages ∧
      s.steps ≤ limits.maxSteps ∧
      (∀ text, .info text ∈ messages → s.steps = limits.maxSteps) ∧
      (∀ e, .error e ∈ messages → e.kind = .fatal →
        messages.getLast? = some (.error e) ∧ ∃ cause, r = .error (.read cause)) ∧
      messages.Pairwise (fun a b => b.kind = "step" → a.kind = "step" ∨ a.kind = "ready") ∧
      s.phase = .terminated := by
  obtain ⟨r, s, w, messages, hrun, hlater, hclosed, hlimits, hserved⟩ :=
    serve_tells (s := new limits) rfl (Wire.ofInput input writesLeft)
  have hsent : w.sent.toList = messages.map Message.line := by
    simpa [Wire.ofInput] using hlater.sent
  have hbound := hserved.bound
  have hstopped := hserved.stopped
  rw [hlimits] at hbound hstopped
  unfold serveReporting
  rw [runOn_tryCatch, hrun]
  cases r with
  | ok u =>
    exact ⟨_, _, _, messages, rfl, rfl, hsent, hserved.conversation, hbound, hstopped,
      fun e he hkind => absurd hkind (hserved.quiet e he), hserved.conversation.pairwise,
      hserved.terminated rfl⟩
  | error e =>
    obtain ⟨r, s', w', told, hrun', hlater', -, rfl, rfl, htold⟩ := reportFatal_tells e (s := s) w
    dsimp only
    rw [runOn_bind, hrun']
    have hsent' := hlater'.sent
    rw [hsent, ← List.map_append] at hsent'
    refine ⟨_, _, _, messages ++ told, rfl, rfl, hsent', ?_⟩
    -- Only a failure to read may still be told: after one to write nothing more is sent.
    cases e with
    | write cause =>
      obtain ⟨rfl, -⟩ := hlater'.closed (hclosed cause rfl)
      rw [List.append_nil]
      exact ⟨hserved.conversation, hbound, hstopped,
        fun e he hkind => absurd hkind (hserved.quiet e he), hserved.conversation.pairwise, rfl⟩
    | read cause =>
      rcases htold with rfl | rfl
      · rw [List.append_nil]
        exact ⟨hserved.conversation, hbound, hstopped,
          fun e he hkind => absurd hkind (hserved.quiet e he), hserved.conversation.pairwise, rfl⟩
      · have hconversation := hserved.unread cause rfl (ChannelError.read cause).trace
          (some (ChannelError.read cause).message)
        refine ⟨hconversation, hbound, fun text htext => hstopped text (by simpa using htext),
          fun e he hkind => ?_, hconversation.pairwise, rfl⟩
        rw [List.mem_append, List.mem_singleton] at he
        rcases he with he | he
        · exact absurd hkind (hserved.quiet e he)
        · exact ⟨by rw [he, List.getLast?_append]; rfl, cause, rfl⟩

end Session

end Stepper
