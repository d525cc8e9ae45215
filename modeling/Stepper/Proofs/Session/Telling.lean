import Mathlib.Data.List.Infix
import Stepper.Proofs.Session.Run

/-!
# What a part of a session tells

`Tells act s Q`: on every channel in memory, `act` runs from the session `s` to an end, which may be
a failure, and `Q` holds of its result, of the session after it and of the messages that it has
told. The channel is in the definition: the lines of the messages, and nothing else, have been added
to it, and what is left of its input is an end of what was there (`Wire.Later`). After a write has
failed, no other one succeeds.

The rules go backwards through a part of a session: each asks for what has to hold before an act.
-/

namespace Stepper

/-- The channel `w'` is `w` after `messages` have been sent and some lines may have been read;
`closed` and `unlimited` say that a limit on the writes stays one. -/
structure Wire.Later (w : Wire) (messages : List Message) (w' : Wire) : Prop where
  sent : w'.sent.toList = w.sent.toList ++ messages.map Message.line
  unread : w'.unread <:+ w.unread
  closed : w.writesLeft = some 0 → messages = [] ∧ w'.writesLeft = some 0
  unlimited : w.writesLeft = none → w'.writesLeft = none

namespace Wire.Later

variable {w w' w'' : Wire} {messages messages' : List Message}

theorem rfl : w.Later [] w :=
  ⟨by simp, List.suffix_refl _, fun h => ⟨Eq.refl _, h⟩, id⟩

theorem trans (h : w.Later messages w') (h' : w'.Later messages' w'') :
    w.Later (messages ++ messages') w'' where
  sent := by rw [h'.sent, h.sent, List.map_append, List.append_assoc]
  unread := h'.unread.trans h.unread
  closed hw := by
    obtain ⟨hm, hw'⟩ := h.closed hw
    obtain ⟨hm', hw''⟩ := h'.closed hw'
    exact ⟨by rw [hm, hm', List.append_nil], hw''⟩
  unlimited hw := h'.unlimited (h.unlimited hw)

end Wire.Later

/-- What `splitLine` leaves is a suffix of `bytes`. -/
theorem Wire.splitLine_suffix (bytes : List UInt8) : (Wire.splitLine bytes).2 <:+ bytes := by
  unfold Wire.splitLine
  have h := List.dropWhile_suffix (l := bytes) (· != lineFeed)
  split
  · exact List.nil_suffix
  · next feed rest hrest => exact (List.suffix_cons feed rest).trans (hrest ▸ h)

namespace Session

/-- From `s`, on any channel in memory, `act` comes to a result, a session and messages with `Q`
(module doc). -/
def Tells (act : SessionM (StateM Wire) α) (s : Session)
    (Q : Except ChannelError α → Session → List Message → Prop) : Prop :=
  ∀ w, ∃ r s' w' messages, runOn act s w = ((r, s'), w') ∧ w.Later messages w' ∧
    (∀ cause, r = .error (.write cause) → w'.writesLeft = some 0) ∧ Q r s' messages

namespace Tells

variable {act : SessionM (StateM Wire) α} {s : Session}
  {Q Q' : Except ChannelError α → Session → List Message → Prop}

theorem mono (h : Tells act s Q) (hQ : ∀ r s' messages, Q r s' messages → Q' r s' messages) :
    Tells act s Q' := by
  intro w
  obtain ⟨r, s', w', messages, hrun, hlater, hclosed, hq⟩ := h w
  exact ⟨r, s', w', messages, hrun, hlater, hclosed, hQ _ _ _ hq⟩

/-- Without a limit (`writesLeft = none`), no write fails. -/
theorem ne_write (h : Tells act s Q) {w : Wire} (hw : w.writesLeft = none) (cause : String) :
    (runOn act s w).1.1 ≠ .error (.write cause) := by
  obtain ⟨r, s', w', messages, hrun, hlater, hclosed, -⟩ := h w
  rw [hrun]
  intro hr
  have := hclosed cause hr
  rw [hlater.unlimited hw] at this
  cases this

/-- An `act` that leaves every channel `w` alone tells nothing. -/
theorem of_run {a : α} {s' : Session} (hrun : ∀ w, runOn act s w = ((.ok a, s'), w))
    (h : Q (.ok a) s' []) : Tells act s Q :=
  fun w => ⟨_, _, _, [], hrun w, .rfl, nofun, h⟩

theorem pure {a : α} (h : Q (.ok a) s []) : Tells (pure a) s Q :=
  .of_run (fun _ => rfl) h

theorem modify {Q : Except ChannelError Unit → Session → List Message → Prop}
    {f : Session → Session} (h : Q (.ok ()) (f s) []) : Tells (modify f) s Q :=
  .of_run (fun _ => rfl) h

theorem setPhase {Q : Except ChannelError Unit → Session → List Message → Prop} {phase : Phase}
    (h : Q (.ok ()) { s with phase := phase } []) : Tells (setPhase phase) s Q :=
  .of_run (fun _ => rfl) h

/-- First `act`, then `f a`, which adds its `messages'`. -/
theorem bind {β : Type} {f : α → SessionM (StateM Wire) β}
    {Q : Except ChannelError β → Session → List Message → Prop}
    (h : Tells act s fun r s' messages => match r with
      | .ok a => Tells (f a) s' fun r s'' messages' => Q r s'' (messages ++ messages')
      | .error e => Q (.error e) s' messages) : Tells (act >>= f) s Q := by
  intro w
  obtain ⟨r, s', w', messages, hrun, hlater, hclosed, hq⟩ := h w
  rw [runOn_bind, hrun]
  cases r with
  | error e =>
    exact ⟨_, _, _, _, rfl, hlater, fun cause he => hclosed cause (by simpa using he), hq⟩
  | ok a =>
    obtain ⟨r, s'', w'', messages', hrun', hlater', hclosed', hq'⟩ := hq w'
    exact ⟨r, s'', w'', _, hrun', hlater.trans hlater', hclosed', hq'⟩

theorem thenTerminate
    (h : Tells act s fun r s' messages => Q r { s' with phase := .terminated } messages) :
    Tells (thenTerminate act) s Q := by
  intro w
  obtain ⟨r, s', w', messages, hrun, hlater, hclosed, hq⟩ := h w
  exact ⟨r, _, w', messages, by rw [runOn_thenTerminate, hrun], hlater, hclosed, hq⟩

/-- Sending `message` tells it, or the write fails and nothing is told. -/
theorem send {Q : Except ChannelError Unit → Session → List Message → Prop} {message : Message}
    (h : Q (.ok ()) s [message]) (hfail : ∀ cause, Q (.error (.write cause)) s []) :
    Tells (send Wire.endpoint message) s Q := by
  intro w
  obtain ⟨unread, sent, writesLeft⟩ := w
  match writesLeft with
  | none =>
    exact ⟨_, _, _, [message], rfl,
      ⟨Array.toList_push, List.suffix_refl _, nofun, fun hw => hw⟩, nofun, h⟩
  | some (n + 1) =>
    exact ⟨_, _, _, [message], rfl,
      ⟨Array.toList_push, List.suffix_refl _, nofun, nofun⟩, nofun, h⟩
  | some 0 => exact ⟨_, _, _, _, rfl, .rfl, fun _ _ => rfl, hfail _⟩

/-- Reading a line tells nothing; the line may be no text. -/
theorem readLine {Q : Except ChannelError (Option String) → Session → List Message → Prop}
    (h : ∀ line, Q (.ok line) s []) (hfail : ∀ cause, Q (.error (.read cause)) s []) :
    Tells (onChannel Wire.endpoint.readLine) s Q := by
  intro w
  have hrun : runOn (onChannel Wire.endpoint.readLine) s w =
      ((textOfLine w.takeLine.1, s), w.takeLine.2) := rfl
  have hlater : w.Later [] w.takeLine.2 :=
    ⟨by simp [Wire.takeLine], Wire.splitLine_suffix _, fun hw => ⟨rfl, hw⟩, fun hw => hw⟩
  unfold textOfLine at hrun
  split at hrun
  · exact ⟨_, _, _, [], hrun, hlater, nofun, h _⟩
  · split at hrun
    · exact ⟨_, _, _, [], hrun, hlater, nofun, h _⟩
    · exact ⟨_, _, _, [], hrun, hlater, nofun, hfail _⟩

theorem linesLeft {Q : Except ChannelError Nat → Session → List Message → Prop}
    (h : ∀ n, Q (.ok n) s []) : Tells (liftM Wire.endpoint.linesLeft) s Q :=
  fun w => ⟨.ok w.unread.length, s, w, [], rfl, .rfl, nofun, h _⟩

end Tells

end Session

end Stepper
