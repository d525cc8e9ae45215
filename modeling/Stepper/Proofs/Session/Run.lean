import Stepper.Json.Codec
import Stepper.Session

/-!
# Runs of parts of a session

`Session.runOn`: what a part of a session yields on a channel that is a state: its result, the
session and the channel after it. The lemmas `runOn_*` follow the operations of which sessions are
made; a run that fails ends at once.
-/

namespace Stepper

namespace Session

variable {σ : Type}

/-- The result of `act`, a part of a session, from the session `s` and the channel `c`, with both
after it. -/
def runOn (act : SessionM (StateM σ) α) (s : Session) (c : σ) :
    (Except ChannelError α × Session) × σ :=
  (act.run.run s).run c

variable {act : SessionM (StateM σ) α} {s s' : Session} {c c' : σ}

theorem runOn_bind (f : α → SessionM (StateM σ) β) :
    runOn (act >>= f) s c =
      match runOn act s c with
      | ((.ok a, s'), c') => runOn (f a) s' c'
      | ((.error e, s'), c') => ((.error e, s'), c') := by
  rcases h : runOn act s c with ⟨⟨r, s'⟩, c'⟩
  unfold runOn at h ⊢
  simp only [ExceptT.run_bind, StateT.run_bind, h]
  cases r <;> rfl

@[simp] theorem runOn_get : runOn get s c = ((.ok s, s), c) := rfl

@[simp] theorem runOn_modify (f : Session → Session) :
    runOn (modify f) s c = ((.ok (), f s), c) := rfl

@[simp] theorem runOn_setPhase (phase : Phase) :
    runOn (setPhase phase) s c = ((.ok (), { s with phase := phase }), c) := rfl

theorem runOn_onChannel (act : Channel (StateM σ) α) :
    runOn (onChannel act) s c = (((act.run.run c).1, s), (act.run.run c).2) := rfl

theorem runOn_thenTerminate :
    runOn (thenTerminate act) s c =
      (((runOn act s c).1.1, { (runOn act s c).1.2 with phase := .terminated }),
        (runOn act s c).2) :=
  rfl

theorem runOn_tryCatch (handle : ChannelError → SessionM (StateM σ) α) :
    runOn (tryCatch act handle) s c =
      match runOn act s c with
      | ((.ok a, s'), c') => ((.ok a, s'), c')
      | ((.error e, s'), c') => runOn (handle e) s' c' := by
  rcases h : runOn act s c with ⟨⟨r, s'⟩, c'⟩
  replace h : StateT.run (StateT.run act s) c = ((r, s'), c') := h
  simp only [runOn, tryCatch, tryCatchThe, MonadExceptOf.tryCatch, ExceptT.tryCatch,
    ExceptT.run_mk, StateT.run_bind]
  rw [h]
  cases r <;> rfl

/-! ## Readers -/

theorem onChannel_bind (x : Channel (StateM σ) α) (f : α → Channel (StateM σ) β) :
    onChannel (x >>= f) = onChannel x >>= fun a => onChannel (f a) := by
  funext s c
  change runOn (onChannel (x >>= f)) s c = runOn (onChannel x >>= fun a => onChannel (f a)) s c
  rw [runOn_bind, runOn_onChannel, runOn_onChannel]
  simp only [ExceptT.run_bind, StateT.run_bind]
  generalize x.run.run c = r
  obtain ⟨r, c'⟩ := r
  cases r <;> rfl

theorem onChannel_readCommand (p : Endpoint (StateM σ)) :
    onChannel p.readCommand =
      onChannel p.readLine >>= fun line => pure (line.bind Command.ofLine?) :=
  onChannel_bind ..

theorem onChannel_readPostRun (p : Endpoint (StateM σ)) :
    onChannel p.readPostRun =
      onChannel p.readLine >>= fun line => pure (line.map PostRunCommand.ofLine) :=
  onChannel_bind ..

end Session

end Stepper
