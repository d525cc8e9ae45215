import Stepper.Proofs.Session.Congruence

/-!
# A channel that records what happens on it

* `Act`: a line has been written, or the bytes of a line have been taken.
* `Tape`: bytes that have not been read, and the acts so far, in their order. Writing never fails.
* `Session.Mirrors`: a part of a session on a channel in memory fails to write, or it does what
  another part does on a tape.
* `Session.execute_mirrors`, `Session.serve_mirrors`: so do running a program and a whole session.
-/

namespace Stepper

/-- What happens on a channel: a line is written, or the bytes of one are taken (none at the end of
the input). -/
inductive Act where
  | wrote (line : String)
  | took (bytes : List UInt8)
  deriving DecidableEq

/-- The line, if the act writes one. -/
def Act.written? : Act → Option String
  | wrote line => some line
  | took _ => none

theorem Act.written_wrote (lines : List String) :
    (lines.map wrote).filterMap written? = lines := by
  simp [List.filterMap_map, Function.comp_def, written?]

/-- A channel of which nothing fails, with the bytes `unread` and the acts on it so far. -/
structure Tape where
  unread : List UInt8
  acts : List Act

namespace Tape

/-- The lines that have been written on `t`, in order. -/
def sent (t : Tape) : List String :=
  t.acts.filterMap Act.written?

/-- Takes a line from the input, and records it as `took`. -/
def takeLine (t : Tape) : List UInt8 × Tape :=
  let (line, rest) := Wire.splitLine t.unread
  (line, ⟨rest, t.acts ++ [.took line]⟩)

/-- Writes `line`, and records it as `wrote`. -/
def write (t : Tape) (line : String) : Tape :=
  { t with acts := t.acts ++ [.wrote line] }

theorem sent_write (t : Tape) (line : String) : (t.write line).sent = t.sent ++ [line] := by
  simp [sent, write, Act.written?]

theorem sent_takeLine (t : Tape) : t.takeLine.2.sent = t.sent := by
  rw [sent, takeLine, List.filterMap_append]
  exact List.append_nil _

/-- The ends of a tape for lines of JSON. -/
def endpoint : Endpoint (StateM Tape) where
  codec := Json.codec
  takeLine := fun t => let (line, t) := t.takeLine; (.ok line, t)
  write line := fun t => (.ok (), t.write line)
  linesLeft := fun t => (t.unread.length, t)

end Tape

/-- The tape `t` has recorded what happened on `w`: the same is unread, and the same lines are sent.
-/
structure Wire.Recorded (w : Wire) (t : Tape) : Prop where
  unread : w.unread = t.unread
  sent : w.sent.toList = t.sent

/-- A tape with what `w` has to read and what has been written on it. -/
def Wire.tape (w : Wire) : Tape :=
  ⟨w.unread, w.sent.toList.map .wrote⟩

theorem Wire.recorded_tape (w : Wire) : w.Recorded w.tape :=
  ⟨rfl, (Act.written_wrote _).symm⟩

namespace Session

theorem runOn_send (message : Message) (s : Session) (t : Tape) :
    runOn (send Tape.endpoint message) s t = ((.ok (), s), t.write message.line) := rfl

theorem runOn_readLine (s : Session) (t : Tape) :
    runOn (onChannel Tape.endpoint.readLine) s t =
      ((textOfLine t.takeLine.1, s), t.takeLine.2) := rfl

theorem runOn_linesLeft (s : Session) (t : Tape) :
    runOn (liftM Tape.endpoint.linesLeft) s t = ((.ok t.unread.length, s), t) := rfl

/-- What `x` does on a channel in memory, `y` does on a tape that has recorded it, unless a write on
the channel fails. -/
def Mirrors (x : SessionM (StateM Wire) α) (y : SessionM (StateM Tape) α) : Prop :=
  ∀ s w t, Wire.Recorded w t →
    (∃ cause, (runOn x s w).1.1 = .error (.write cause)) ∨
    ((runOn x s w).1 = (runOn y s t).1 ∧ (runOn x s w).2.Recorded (runOn y s t).2)

theorem mirrors_bind {x : SessionM (StateM Wire) α} {y : SessionM (StateM Tape) α}
    {f : α → SessionM (StateM Wire) β} {g : α → SessionM (StateM Tape) β} (hxy : Mirrors x y)
    (hfg : ∀ a, Mirrors (f a) (g a)) : Mirrors (x >>= f) (y >>= g) := by
  intro s w t ht
  have h := hxy s w t ht
  rw [runOn_bind, runOn_bind]
  rcases hx : runOn x s w with ⟨⟨r, s₁⟩, w₁⟩
  rcases hy : runOn y s t with ⟨⟨r', s₁'⟩, t₁⟩
  rw [hx, hy] at h
  rcases h with ⟨cause, h⟩ | ⟨h, ht₁⟩
  · obtain rfl : r = .error (.write cause) := h
    exact .inl ⟨cause, rfl⟩
  · obtain ⟨rfl, rfl⟩ := Prod.mk.inj h
    cases r with
    | ok a => exact hfg a s₁ w₁ t₁ ht₁
    | error e => exact .inr ⟨rfl, ht₁⟩

theorem mirrors_send (message : Message) :
    Mirrors (send Wire.endpoint message) (send Tape.endpoint message) := by
  rintro s ⟨unread, sent, writesLeft⟩ t ⟨hunread, hsent⟩
  have hsent' : (sent.push message.line).toList = (t.write message.line).sent := by
    rw [Array.toList_push, hsent, t.sent_write]
  match writesLeft with
  | some 0 => exact .inl ⟨_, rfl⟩
  | some (n + 1) => exact .inr ⟨rfl, hunread, hsent'⟩
  | none => exact .inr ⟨rfl, hunread, hsent'⟩

theorem mirrors_readLine :
    Mirrors (onChannel Wire.endpoint.readLine) (onChannel Tape.endpoint.readLine) := by
  rintro s ⟨unread, sent, writesLeft⟩ ⟨_, acts⟩ ⟨rfl, hsent⟩
  exact .inr ⟨rfl, rfl, hsent.trans (Tape.sent_takeLine _).symm⟩

theorem mirrors_congruence : Congruence Wire.endpoint Tape.endpoint Mirrors where
  pure _ _ _ _ ht := .inr ⟨rfl, ht⟩
  bind := mirrors_bind
  get _ _ _ ht := .inr ⟨rfl, ht⟩
  modify _ _ _ _ ht := .inr ⟨rfl, ht⟩
  send := mirrors_send
  readLine := mirrors_readLine
  linesLeft s w t ht := by
    refine .inr ⟨?_, ht⟩
    change (Except.ok w.unread.length, s) = (Except.ok t.unread.length, s)
    rw [ht.unread]
  thenTerminate h s w t ht := by
    rw [runOn_thenTerminate, runOn_thenTerminate]
    rcases h s w t ht with h | ⟨h, ht'⟩
    · exact .inl h
    · exact .inr ⟨by rw [h], ht'⟩

theorem execute_mirrors (source : String) :
    Mirrors (execute Wire.endpoint source) (execute Tape.endpoint source) :=
  execute_rel mirrors_congruence source

theorem serve_mirrors : Mirrors (serve Wire.endpoint) (serve Tape.endpoint) :=
  serve_rel mirrors_congruence

end Session

end Stepper
