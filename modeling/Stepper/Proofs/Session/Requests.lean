import Stepper.Proofs.Session.Conversation

/-!
# Sessions asked for their parts in any order

The parts of a session can be asked for one by one, in any order and any number of times, on one
channel that may fail at any time.

* `Message.kind_eq_of_line_eq`: the line of a message tells its kind, so pauses that have been told
  can be counted on the channel (`Wire.stepsSent`).
* `Tallies`: a part of a session that counts the steps that it tells, and does not tell too many.
  Every part is one.
* `Request`, `after`: the parts that can be asked for, and what they leave.
* `consistent_after`: after any requests the session has counted the pauses that it has told.
* `requests_keep_count`: what holds after one more request, and how a program leaves the session.
-/

namespace Stepper

/-! ## Lines and messages -/

namespace Message

/-- The first letter of the first key in the line of a message; it tells the six kinds apart. -/
def initial : Message → Char
  | ready _ => 'r'
  | step _ => 'l'
  | info _ => 'i'
  | finished _ _ => 'f'
  | error _ => 'e'
  | waitingForNewCode _ => 'w'
  | heartbeat _ _ => 'h'

/-- A line begins with `\x7b"` and `initial`: that letter is never escaped, and the field that it
begins is never skipped. -/
theorem toList_line (m : Message) : ∃ rest, m.line.toList = '\x7b' :: '"' :: m.initial :: rest := by
  have hfield : ∃ key value fields cs, m.fields = (key, some value) :: fields ∧
      key.toList = m.initial :: cs ∧ Json.escapeChar m.initial = [m.initial] := by
    cases m <;> exact ⟨_, _, _, _, rfl, rfl, rfl⟩
  obtain ⟨key, value, fields, cs, hfields, hkey, hplain⟩ := hfield
  change ∃ rest, (Json.render (.object (m.fields.filterMap _)) ++ "\n").toList = _
  rw [hfields, List.filterMap_cons, Json.render, String.toList_append, String.toList_ofList]
  generalize List.filterMap _ fields = entries
  cases entries <;> simp [Json.chars, Json.entriesChars, Json.stringChars, hkey, hplain]

theorem kind_eq_of_initial_eq {m m' : Message} (h : m.initial = m'.initial) : m.kind = m'.kind := by
  cases m <;> cases m' <;> simp [initial, kind] at h ⊢

/-- Messages with the same `line` have the same `kind`. -/
theorem kind_eq_of_line_eq {m m' : Message} (h : m.line = m'.line) : m.kind = m'.kind := by
  obtain ⟨rest, hm⟩ := m.toList_line
  obtain ⟨rest', hm'⟩ := m'.toList_line
  rw [h, hm'] at hm
  simp only [List.cons.injEq, true_and] at hm
  exact (kind_eq_of_initial_eq hm.1).symm

end Message

/-- The text `line` is that of a `Message.step`. -/
def IsStepLine (line : String) : Prop :=
  ∃ e, line = (Message.step e).line

theorem isStepLine_line_iff (m : Message) : IsStepLine m.line ↔ m.kind = "step" := by
  constructor
  · rintro ⟨e, he⟩
    exact Message.kind_eq_of_line_eq he
  · intro hkind
    cases m with
    | step e => exact ⟨e, rfl⟩
    | _ => simp [Message.kind] at hkind

namespace Wire

open Classical in
/-- How many of the lines sent on `w` tell of a pause. -/
noncomputable def stepsSent (w : Wire) : Nat :=
  w.sent.toList.countP fun line => decide (IsStepLine line)

/-- From `w` to `w'` more lines have been written, and the last one is a `finished`. -/
def TellsFinished (w w' : Wire) : Prop :=
  w.sent.size < w'.sent.size ∧
    ∃ output, w'.sent.toList.getLast? = some (Message.finished true output).line

variable {w w' : Wire} {messages : List Message}

theorem Later.stepsSent (h : w.Later messages w') :
    w'.stepsSent = w.stepsSent + messages.countP (·.kind == "step") := by
  unfold Wire.stepsSent
  rw [h.sent, List.countP_append, List.countP_map]
  congr 1
  apply List.countP_congr
  intro m _
  simp [isStepLine_line_iff]

theorem Later.tellsFinished {output : String} (h : w.Later messages w')
    (hlast : messages.getLast? = some (.finished true output)) : w.TellsFinished w' := by
  have hne : messages ≠ [] := by
    intro hnil
    rw [hnil] at hlast
    cases hlast
  have hsize := congrArg List.length h.sent
  simp only [List.length_append, List.length_map, Array.length_toList] at hsize
  refine ⟨?_, output, ?_⟩
  · have hpos := List.length_pos_iff.2 hne
    omega
  · rw [h.sent, List.getLast?_append, List.getLast?_map, hlast]
    rfl

theorem Later.not_tellsFinished (h : w.Later messages w')
    (hlast : ∀ m, messages.getLast? = some m → m.kind ≠ "finished") : ¬ w.TellsFinished w' := by
  rintro ⟨hsize, output, hout⟩
  have hlength := congrArg List.length h.sent
  simp only [List.length_append, List.length_map, Array.length_toList] at hlength
  have hne : messages ≠ [] := by
    rintro rfl
    simp at hlength
    omega
  rw [h.sent, List.getLast?_append, List.getLast?_map, List.getLast?_eq_some_getLast hne] at hout
  have hline : (messages.getLast hne).line = (Message.finished true output).line := by
    simpa using hout
  exact hlast _ (List.getLast?_eq_some_getLast hne) (Message.kind_eq_of_line_eq hline)

end Wire

namespace Session

/-! ## Counting -/

/-- A session `s'` after `messages`: it has counted each `step` among them, and has not passed
`maxSteps`. -/
structure Tallied (s s' : Session) (messages : List Message) : Prop where
  limits : s'.limits = s.limits
  steps : s'.steps = s.steps + messages.countP (·.kind == "step")
  bound : s'.steps ≤ s'.limits.maxSteps

/-- Messages without a `step` leave the count as it was. -/
theorem Tallied.of_quiet {s s' : Session} {messages : List Message} (hlimits : s'.limits = s.limits)
    (hsteps : s'.steps = s.steps) (hs : s.steps ≤ s.limits.maxSteps)
    (hquiet : ∀ m ∈ messages, m.kind ≠ "step") : Tallied s s' messages := by
  have hcount : messages.countP (·.kind == "step") = 0 := by
    rw [List.countP_eq_zero]
    simpa using hquiet
  refine ⟨hlimits, ?_, ?_⟩
  · rw [hcount, hsteps, Nat.add_zero]
  · rwa [hlimits, hsteps]

theorem Tallied.append {s s' s'' : Session} {messages messages' : List Message}
    (h : Tallied s s' messages) (h' : Tallied s' s'' messages') :
    Tallied s s'' (messages ++ messages') where
  limits := h'.limits.trans h.limits
  steps := by rw [h'.steps, h.steps, List.countP_append, Nat.add_assoc]
  bound := h'.bound

/-- A part of a session that counts the pauses that it tells of, if it starts within `maxSteps`. -/
def Tallies (act : SessionM (StateM Wire) α) : Prop :=
  ∀ s, s.steps ≤ s.limits.maxSteps → Tells act s fun _ s' messages => Tallied s s' messages

theorem tallies_bind {act : SessionM (StateM Wire) α} {f : α → SessionM (StateM Wire) β}
    (hact : Tallies act) (hf : ∀ a, Tallies (f a)) : Tallies (act >>= f) := by
  intro s hs
  refine .bind ((hact s hs).mono fun r s₁ messages h => ?_)
  cases r with
  | error e => exact h
  | ok a => exact (hf a s₁ h.bound).mono fun _ _ _ h' => h.append h'

theorem tallies_pure (a : α) : Tallies (pure a) :=
  fun _ hs => .pure (.of_quiet rfl rfl hs (by simp))

theorem tallies_get : Tallies (get : SessionM (StateM Wire) Session) :=
  fun _ hs => .of_run (fun _ => rfl) (.of_quiet rfl rfl hs (by simp))

theorem tallies_handshake : Tallies (handshake Wire.endpoint) := by
  intro s hs
  refine handshake_tells.mono fun r s' messages h => ?_
  obtain ⟨hlimits, hsteps, hmessages⟩ := h
  refine .of_quiet hlimits hsteps hs ?_
  rcases hmessages with rfl | rfl <;> simp [Message.kind]

theorem tallies_receiveSessionId : Tallies (receiveSessionId Wire.endpoint) := by
  intro s hs
  refine receiveSessionId_tells.mono fun r s' messages h => ?_
  obtain ⟨hlimits, hsteps, rfl, -⟩ := h
  exact .of_quiet hlimits hsteps hs (by simp)

theorem tallies_collectCode : Tallies (collectCode Wire.endpoint) := by
  intro s hs
  refine collectCode_tells.mono fun r s' messages h => ?_
  obtain ⟨rfl, rfl⟩ := h
  cases r with
  | error e => exact .of_quiet rfl rfl hs (by simp)
  | ok source => exact .of_quiet rfl rfl hs (by simp)

theorem Left.quiet {s : Session} {r : Except ChannelError Unit} {events : List StepEvent}
    {closing : List Message} (h : Left s r events closing) : ∀ m ∈ closing, m.kind ≠ "step" := by
  cases h <;> simp [Message.kind, Message.maxStepsReached]

theorem tallies_execute (source : String) : Tallies (execute Wire.endpoint source) := by
  intro s hs
  refine (execute_tells source hs).mono fun r s' messages h => ?_
  obtain ⟨events, closing, rfl, hcount, hleft⟩ := h
  have hevents : (events.map Message.step).countP (·.kind == "step") = events.length := by
    rw [List.countP_map]
    exact List.countP_eq_length.2 fun _ _ => rfl
  have hclosing : closing.countP (·.kind == "step") = 0 := by
    rw [List.countP_eq_zero]
    simpa using hleft.quiet
  refine ⟨hcount.limits, ?_, hcount.bound⟩
  rw [hcount.steps, List.countP_append, hevents, hclosing, Nat.add_zero]

theorem tallies_postRunLoop : Tallies (postRunLoop Wire.endpoint) := by
  intro s hs
  refine postRunLoop_tells.mono fun r s' messages h => ?_
  obtain ⟨hlimits, hsteps, -, commands, hmessages⟩ := h
  refine .of_quiet hlimits hsteps hs ?_
  rcases hmessages with rfl | ⟨rfl, -⟩ <;> simp [Message.kind, or_imp, forall_and]

theorem tallies_reportFailure (trace text : String) :
    Tallies (reportFailure Wire.endpoint trace text) := by
  intro s hs
  refine (reportFailure_tells trace text).mono fun r s' messages h => ?_
  obtain ⟨-, rfl, hmessages⟩ := h
  refine .of_quiet rfl rfl hs ?_
  rcases hmessages with rfl | rfl <;> simp [Message.kind]

/-- The whole session, `serve`, counts its pauses, wherever it starts. -/
theorem tallies_serve : Tallies (serve Wire.endpoint) := by
  refine tallies_bind tallies_handshake fun _ => ?_
  refine tallies_bind tallies_receiveSessionId fun id => ?_
  split
  · refine tallies_bind tallies_collectCode fun source => ?_
    refine tallies_bind (tallies_execute source) fun _ => ?_
    refine tallies_bind tallies_get fun s => ?_
    split
    · exact tallies_postRunLoop
    · exact tallies_pure ()
  · exact tallies_pure ()

/-! ## Requests -/

/-- What a session can be asked for: any of its parts, in any order. -/
inductive Request where
  | handshake
  | receiveSessionId
  | collectCode
  | execute (source : String)
  | postRunLoop
  | serve
  | reportFailure (trace text : String)

/-- The part of a session that a request runs on a channel in memory. -/
def Request.act : Request → SessionM (StateM Wire) Unit
  | handshake => Session.handshake Wire.endpoint
  | receiveSessionId => do let _ ← Session.receiveSessionId Wire.endpoint
  | collectCode => do let _ ← Session.collectCode Wire.endpoint
  | execute source => Session.execute Wire.endpoint source
  | postRunLoop => Session.postRunLoop Wire.endpoint
  | serve => Session.serve Wire.endpoint
  | reportFailure trace text => Session.reportFailure Wire.endpoint trace text

/-- The session and its channel `c` after a request, whether it has failed or not. -/
def Request.perform (c : Session × Wire) (request : Request) : Session × Wire :=
  let ((_, s), w) := runOn request.act c.1 c.2
  (s, w)

/-- A session new with `limits` and its channel of `input` after `requests`, from the first on. -/
def after (limits : Limits) (input : List UInt8) (writesLeft : Option Nat)
    (requests : List Request) : Session × Wire :=
  requests.foldl Request.perform (new limits, Wire.ofInput input writesLeft)

theorem Request.tallies : (request : Request) → Tallies request.act
  | .handshake => tallies_handshake
  | .receiveSessionId => tallies_bind tallies_receiveSessionId fun _ => tallies_pure ()
  | .collectCode => tallies_bind tallies_collectCode fun _ => tallies_pure ()
  | .execute source => tallies_execute source
  | .postRunLoop => tallies_postRunLoop
  | .serve => tallies_serve
  | .reportFailure trace text => tallies_reportFailure trace text

/-- The session counts exactly the pauses told of on its channel, `steps = stepsSent`, and not more
than `maxSteps`. -/
structure Consistent (limits : Limits) (c : Session × Wire) : Prop where
  sameLimits : c.1.limits = limits
  bound : c.1.steps ≤ limits.maxSteps
  counted : c.1.steps = c.2.stepsSent

/-- A session and its channel `c'`, later than `c`: the count has not gone down, what was sent is a
prefix, and what is left to read is a suffix. -/
structure Onward (c c' : Session × Wire) : Prop where
  steps : c.1.steps ≤ c'.1.steps
  sent : c.2.sent.toList <+: c'.2.sent.toList
  unread : c'.2.unread <:+ c.2.unread

/-- One request keeps `Consistent`, and what follows it is `Onward`. -/
theorem Consistent.perform {limits : Limits} {c : Session × Wire} (h : Consistent limits c)
    (request : Request) :
    Consistent limits (request.perform c) ∧ Onward c (request.perform c) := by
  obtain ⟨s, w⟩ := c
  obtain ⟨hlimits, hbound, hcounted⟩ := h
  dsimp only at hlimits hbound hcounted
  obtain ⟨r, s', w', messages, hrun, hlater, -, htallied⟩ :=
    request.tallies s (by rwa [hlimits]) w
  have hperform : request.perform (s, w) = (s', w') := by
    rw [Request.perform, hrun]
  have hsteps := htallied.steps
  have hlimits' := htallied.limits.trans hlimits
  have hbound' := htallied.bound
  rw [hlimits'] at hbound'
  rw [hperform]
  -- What `Tallied` counts in the messages is what `stepsSent` counts in their lines.
  refine ⟨⟨hlimits', hbound', ?_⟩, ⟨?_, ⟨_, hlater.sent.symm⟩, hlater.unread⟩⟩
  · dsimp only
    rw [hlater.stepsSent, hsteps, hcounted]
  · dsimp only
    omega

/-- Any number of requests in any order, by induction on `requests`. -/
theorem consistent_after (limits : Limits) (input : List UInt8) (writesLeft : Option Nat)
    (requests : List Request) : Consistent limits (after limits input writesLeft requests) := by
  have hstart : Consistent limits (new limits, Wire.ofInput input writesLeft) :=
    ⟨rfl, Nat.zero_le _, rfl⟩
  unfold after
  generalize (new limits, Wire.ofInput input writesLeft) = c at hstart
  induction requests generalizing c with
  | nil => exact hstart
  | cons request rest ih => exact ih _ (hstart.perform request).1

/-- If `Left` has ended the session, the last of its messages is no `finished`. -/
theorem Left.kind_getLast?_ne {s : Session} {r : Except ChannelError Unit}
    {events : List StepEvent} {closing : List Message} (h : Left s r events closing)
    (hs : s.phase = .terminated) :
    ∀ m, (events.map Message.step ++ closing).getLast? = some m → m.kind ≠ "finished" := by
  cases h with
  | finished _ _ hphase => rw [hs] at hphase; cases hphase
  | raised | stopped | unfit => simp [Message.kind, Message.maxStepsReached]
  | silent =>
    intro m hm
    have hmem := List.mem_of_getLast? hm
    rw [List.append_nil, List.mem_map] at hmem
    obtain ⟨e, -, rfl⟩ := hmem
    simp [Message.kind]

/-- How `execute` leaves a session: `finished`, with the line of a `finished` as the last one
(`TellsFinished`), or `terminated`. -/
theorem execute_phase (source : String) {s : Session} (hs : s.steps ≤ s.limits.maxSteps)
    (w : Wire) :
    let run := runOn (execute Wire.endpoint source) s w
    (run.1.2.phase = .finished ∧ run.1.1 = .ok () ∧ w.TellsFinished run.2) ∨
      (run.1.2.phase = .terminated ∧ ¬ (run.1.1 = .ok () ∧ w.TellsFinished run.2)) := by
  obtain ⟨r, s', w', messages, hrun, hlater, -, events, closing, rfl, -, hleft⟩ :=
    execute_tells source hs w
  dsimp only
  rw [hrun]
  by_cases hphase : s'.phase = .finished
  · cases hleft with
    | finished _ output =>
      exact .inl ⟨hphase, rfl, hlater.tellsFinished (List.getLast?_concat ..)⟩
    | raised _ _ h | stopped _ h | silent _ _ h | unfit _ h => rw [hphase] at h; cases h
  · have hover := hleft.terminated hphase
    exact .inr ⟨hover, fun h => hlater.not_tellsFinished (hleft.kind_getLast?_ne hover) h.2⟩

/-- After any `requests`, on any `input` and whenever writing starts to fail, one more `request`
only adds: `steps` has not gone down, equals `stepsSent` and is at most `maxSteps`; what was sent is
a prefix of what is sent now, and what is unread a suffix of what was. If that request is `execute`,
the phase is then `finished`, and the last line tells so, or `terminated`. -/
theorem requests_keep_count (limits : Limits) (input : List UInt8) (writesLeft : Option Nat)
    (requests : List Request) :
    let c := after limits input writesLeft requests
    (∀ request : Request,
      let c' := request.perform c
      c.1.steps ≤ c'.1.steps ∧ c'.1.steps ≤ limits.maxSteps ∧ c'.1.steps = c'.2.stepsSent ∧
        c.2.sent.toList <+: c'.2.sent.toList ∧ c'.2.unread <:+ c.2.unread) ∧
    ∀ source,
      let run := runOn (execute Wire.endpoint source) c.1 c.2
      (run.1.2.phase = .finished ∧ run.1.1 = .ok () ∧ c.2.TellsFinished run.2) ∨
        (run.1.2.phase = .terminated ∧ ¬ (run.1.1 = .ok () ∧ c.2.TellsFinished run.2)) := by
  intro c
  have hc : Consistent limits c := consistent_after limits input writesLeft requests
  refine ⟨fun request => ?_, fun source => ?_⟩
  · obtain ⟨hconsistent, honward⟩ := hc.perform request
    exact ⟨honward.steps, hconsistent.bound, hconsistent.counted, honward.sent, honward.unread⟩
  · have hbound := hc.bound
    rw [← hc.sameLimits] at hbound
    exact execute_phase source hbound c.2

end Session

end Stepper
