import Stepper.Proofs.Session.Run

/-!
# Relations that every part of a session respects

A session is made of few acts, whatever channel it has. A relation between parts of sessions on two
channels that these acts keep holds of the whole session on the one and on the other.

* `Session.Congruence`: what a relation has to keep.
* `execute_rel`, `serve_rel`: the relation holds of running a program, and of the whole session.
-/

namespace Stepper

namespace Session

/-- A relation `R` between parts of sessions on two channels, with the ends `p` and `p'`, that the
acts of sessions keep. -/
structure Congruence (p : Endpoint (StateM σ)) (p' : Endpoint (StateM τ))
    (R : {α : Type} → SessionM (StateM σ) α → SessionM (StateM τ) α → Prop) : Prop where
  pure {α : Type} (a : α) : R (pure a) (pure a)
  bind {α β : Type} {x : SessionM (StateM σ) α} {x' : SessionM (StateM τ) α}
    {f : α → SessionM (StateM σ) β} {f' : α → SessionM (StateM τ) β} :
    R x x' → (∀ a, R (f a) (f' a)) → R (x >>= f) (x' >>= f')
  get : R get get
  modify (f : Session → Session) : R (modify f) (modify f)
  send (message : Message) : R (send p message) (send p' message)
  readLine : R (onChannel p.readLine) (onChannel p'.readLine)
  linesLeft : R (liftM p.linesLeft) (liftM p'.linesLeft)
  thenTerminate {α : Type} {x : SessionM (StateM σ) α} {x' : SessionM (StateM τ) α} :
    R x x' → R (thenTerminate x) (thenTerminate x')

variable {p : Endpoint (StateM σ)} {p' : Endpoint (StateM τ)}
  {R : {α : Type} → SessionM (StateM σ) α → SessionM (StateM τ) α → Prop}

theorem pauseAt_rel (h : Congruence p p' R) (pause : Pause) :
    R (pauseAt p pause) (pauseAt p' pause) := by
  unfold pauseAt
  rw [onChannel_readCommand, onChannel_readCommand]
  refine h.bind h.get fun s => ?_
  split
  · exact h.bind (h.send _) fun _ => h.pure _
  · refine h.bind (h.modify _) fun _ => h.bind (h.send _) fun _ => h.bind (h.modify _) fun _ =>
      h.bind (h.bind h.readLine fun _ => h.pure _) fun command => ?_
    dsimp only
    split
    · exact h.bind (h.modify _) fun _ => h.pure _
    · exact h.pure _

/-- An execution `x` whose pauses a session answers is related to itself, by induction on `x`. -/
theorem drive_rel (h : Congruence p p' R) (x : Execution α) :
    R (x.drive (pauseAt p)) (x.drive (pauseAt p')) := by
  induction x with
  | ended a => exact h.pure a
  | paused pause resume ih => exact h.bind (pauseAt_rel h pause) ih

theorem report_rel (h : Congruence p p' R) (program : Program) (outcome : Outcome) (m : Machine) :
    R (report p program outcome m) (report p' program outcome m) := by
  unfold report
  split
  · exact h.bind (h.send _) fun _ => h.modify _
  · exact h.send _
  · exact h.pure _
  · exact h.pure _

theorem execute_rel (h : Congruence p p' R) (source : String) :
    R (execute p source) (execute p' source) := by
  unfold execute
  refine h.bind (h.modify _) fun _ => ?_
  split
  · exact h.bind (h.modify _) fun _ => h.send _
  · exact h.bind h.get fun _ => h.bind (h.thenTerminate (drive_rel h _)) fun _ =>
      report_rel h _ _ _

theorem codeLines_rel (h : Congruence p p' R) (rounds : Nat) :
    R (codeLines p rounds) (codeLines p' rounds) := by
  induction rounds with
  | zero => exact h.pure _
  | succ rounds ih =>
    unfold codeLines
    refine h.bind h.readLine fun line => ?_
    split
    · exact h.pure _
    · split
      · exact h.pure _
      · exact h.bind ih fun _ => h.pure _

theorem collectCode_rel (h : Congruence p p' R) : R (collectCode p) (collectCode p') :=
  h.bind h.linesLeft fun _ => h.bind (codeLines_rel h _) fun _ =>
    h.bind (h.modify _) fun _ => h.pure _

theorem answerCommands_rel (h : Congruence p p' R) (rounds : Nat) :
    R (answerCommands p rounds) (answerCommands p' rounds) := by
  induction rounds with
  | zero => exact h.pure _
  | succ rounds ih =>
    unfold answerCommands
    rw [onChannel_readPostRun, onChannel_readPostRun]
    refine h.bind (h.bind h.readLine fun _ => h.pure _) fun command => ?_
    split
    · exact h.pure _
    · exact h.pure _
    · exact h.send _
    · exact h.bind (h.send _) fun _ => ih

theorem serve_rel (h : Congruence p p' R) : R (serve p) (serve p') := by
  unfold serve handshake receiveSessionId postRunLoop
  refine h.bind (h.bind (h.send _) fun _ => h.modify _) fun _ => ?_
  refine h.bind (h.bind h.readLine fun _ => h.bind (h.modify _) fun _ => h.bind (h.modify _)
    fun _ => h.pure _) fun id => ?_
  split
  · refine h.bind (collectCode_rel h) fun source => ?_
    refine h.bind (execute_rel h source) fun _ => h.bind h.get fun s => ?_
    split
    · exact h.bind h.linesLeft fun _ => h.bind (answerCommands_rel h _) fun _ => h.modify _
    · exact h.pure _
  · exact h.pure _

end Session

end Stepper
