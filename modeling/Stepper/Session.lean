import Stepper.Channel
import Stepper.Run

/-!
# Sessions

A session reads a program from its controller and runs it statement by statement.

* `Limits`: how many pauses a session makes, and how much it shows at a pause.
* `Session`: how far a session has come.
* `Session.serve`: the whole session: it says that it is ready, reads a name and a program, runs the
  program with a pause after each statement, and answers commands after the program has ended.
* `Session.reportFailure`, `Session.reportFatal`: tell of a failure, and of one of the channel.

At a pause the session sends one message and reads one line. All other lines are read before the
program starts or after it has ended.
-/

namespace Stepper

/-- How many pauses a session makes, and how much it shows at a pause. -/
structure Limits where
  maxSteps : Nat
  /-- The characters of the output that are shown. -/
  maxOutputChars : Nat
  /-- The characters of a value that are shown; zero means all of them. -/
  maxValueChars : Nat
  deriving DecidableEq

/-- The limits of a session that is told nothing else. -/
def Limits.default : Limits where
  maxSteps := 10000
  maxOutputChars := 20000
  maxValueChars := 500

/-- What a session waits for or does. -/
inductive Phase where
  | awaitingHandshake | awaitingSessionId | collectingCode | running | paused | finished
  | terminated
  deriving DecidableEq

/-- How far a session has come. -/
structure Session where
  limits : Limits
  phase : Phase
  id : Option String
  /-- How many pauses it has told of. -/
  steps : Nat

/-- The line that ends the program. -/
def endOfCode : String := "===END_OF_CODE==="

/-- A part of a session over a channel in `m`: it changes the `Session`, and may fail with the
channel. -/
abbrev SessionM (m : Type → Type) (α : Type) := ExceptT ChannelError (StateT Session m) α

namespace Session

/-- A session within `limits` that has not begun. -/
def new (limits : Limits) : Session :=
  ⟨limits, .awaitingHandshake, none, 0⟩

variable {m : Type → Type} [Monad m]

/-- The act `act`, which only concerns the channel. -/
def onChannel (act : Channel m α) : SessionM m α := ExceptT.mk fun s => do
  return (← act.run, s)

/-- Sends `message`. -/
def send (p : Endpoint m) (message : Message) : SessionM m Unit :=
  onChannel (p.send message)

/-- Comes to `phase`. -/
def setPhase (phase : Phase) : SessionM m Unit :=
  modify fun s => { s with phase := phase }

/-- Comes to the last phase after `act`, also if that fails. -/
def thenTerminate (act : SessionM m α) : SessionM m α := ExceptT.mk fun s => do
  let (result, s) ← act.run s
  return (result, { s with phase := .terminated })

/-- Says that the session is ready. -/
def handshake (p : Endpoint m) : SessionM m Unit := do
  send p (.ready true)
  setPhase .awaitingSessionId

/-- Reads the name of the session, which becomes its `id`. A blank line or the end of the input ends
the session. -/
def receiveSessionId (p : Endpoint m) : SessionM m (Option String) := do
  let line ← onChannel p.readLine
  let id := (line.map Text.trim).filter (!·.isEmpty)
  modify fun s => { s with id := id }
  setPhase (if id.isSome then .collectingCode else .terminated)
  return id

/-- Reads lines up to `endOfCode`, or to the end of the input. -/
def codeLines (p : Endpoint m) : Nat → SessionM m (List String)
  | 0 => return []
  | rounds + 1 => do
    match ← onChannel p.readLine with
    | none => return []
    | some line =>
      if Text.trim line = endOfCode then return []
      else return (line ++ "\n") :: (← codeLines p rounds)

/-- Reads the program, whose lines are put together with nothing between them. -/
def collectCode (p : Endpoint m) : SessionM m String := do
  let lines ← codeLines p ((← p.linesLeft) + 1)
  setPhase .running
  return String.join lines

/-- What is told at `pause`, cut to `limits`. -/
def eventOf (limits : Limits) (pause : Pause) : StepEvent where
  line := pause.line
  filename := sourceName
  vars := .capture pause.machine.store limits.maxValueChars pause.machine.frame.bindings
  output := (pause.machine.output.trim limits.maxOutputChars).window

/-- How the program goes on after a command: only `stop`, or no command, ends it. -/
def answerOf : Option Command → Answer
  | none | some .stop => .abort
  | some .goOn => .goOn
  | some .step | some .next | some (.unrecognized _) => .step

/-- Tells of `pause` and reads what to do, unless the session has made all its pauses. -/
def pauseAt (p : Endpoint m) (pause : Pause) : SessionM m Reply := do
  let s ← get
  if s.limits.maxSteps ≤ s.steps then
    send p .maxStepsReached
    return ⟨.abort, none⟩
  else
    setPhase .paused
    send p (.step (eventOf s.limits pause))
    modify fun s => { s with steps := s.steps + 1 }
    let answer := answerOf (← onChannel p.readCommand)
    if answer ≠ .abort then setPhase .running
    return ⟨answer, some s.limits.maxOutputChars⟩

/-- Tells how `program` has ended. If it was stopped, it is not spoken of again. -/
def report (p : Endpoint m) (program : Program) (outcome : Outcome) (machine : Machine) :
    SessionM m Unit :=
  match outcome with
  | .completed => do
    send p (.finished true machine.output.transcript)
    setPhase .finished
  | .raised e => send p (.error ⟨.exception, (Traceback.ofException e).render program, none⟩)
  | .aborted | .unfinished => pure ()

/-- Runs the program of `source` and tells how it has ended. A loop that pauses in every turn is
stopped at a pause before it has made all turns that it is allowed, `maxSteps + 1`. -/
def execute (p : Endpoint m) (source : String) : SessionM m Unit := do
  setPhase .running
  match Program.ofSource source with
  | .error e =>
    setPhase .terminated
    send p (.error ⟨.source, (e.trace source).render, none⟩)
  | .ok program =>
    let turns := (← get).limits.maxSteps + 1
    let (outcome, machine) ← thenTerminate ((program.run turns).drive (pauseAt p))
    report p program outcome machine

/-- Answers commands, `rounds` at most, until one ends the session, or the input ends. -/
def answerCommands (p : Endpoint m) : Nat → SessionM m Unit
  | 0 => return
  | rounds + 1 => do
    match ← onChannel p.readPostRun with
    | none | some .exit => return
    | some .restart => send p (.waitingForNewCode true)
    | some (.other text) =>
      send p (.heartbeat true text)
      answerCommands p rounds

/-- Answers commands after the program has ended. There are no more of them than `p.linesLeft`. -/
def postRunLoop (p : Endpoint m) : SessionM m Unit := do
  answerCommands p ((← p.linesLeft) + 1)
  setPhase .terminated

/-- The whole session at `p`. -/
def serve (p : Endpoint m) : SessionM m Unit := do
  handshake p
  if (← receiveSessionId p).isSome then
    execute p (← collectCode p)
    if (← get).phase = .finished then
      postRunLoop p

/-- Tells of a failure, with its causes, `trace`, and one line about it, `text`; if that fails too,
nothing more is tried. -/
def reportFailure (p : Endpoint m) (trace text : String) : SessionM m Unit := do
  setPhase .terminated
  try
    send p (.error ⟨.fatal, trace, some text⟩)
  catch _ =>
    return

/-- Tells of the failure `e` of the channel. -/
def reportFatal (p : Endpoint m) (e : ChannelError) : SessionM m Unit :=
  reportFailure p e.trace e.message

/-- The whole session at `p`; a failure is told and yielded. -/
def serveReporting (p : Endpoint m) : SessionM m Unit := do
  try
    serve p
  catch e =>
    reportFatal p e
    throw e

end Session

end Stepper
