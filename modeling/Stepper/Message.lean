import Stepper.Codec
import Stepper.Snapshot
import Stepper.Text.Blank

/-!
# Messages

* `Message`: what a session tells its controller. A message is one line: an object whose keys tell
  which message it is.
* `Snapshot.toJson`, `Codec.snapshot?`: the names and texts of a snapshot as an object.
* `Codec.line`: the line of a message, in some codec.
* `Codec.decode`: the message of a line. The messages are tried in the order of the constructors,
  and the first whose keys and values are all there is taken.
-/

namespace Stepper

/-- The snapshot `s` as an object of strings. -/
def Snapshot.toJson (s : Snapshot) : Json :=
  .object (s.vars.map fun (name, text) => (name, .str text))

/-- What a program is like at a pause: the `line` it has executed, its variables as texts, and the
output that is shown. -/
structure StepEvent where
  line : Nat
  filename : String
  vars : Snapshot
  output : String
  deriving DecidableEq

/-- What went wrong: the text is no program, the program raised an exception, or the session itself
failed. -/
inductive ErrorKind where
  | source | exception | fatal
  deriving DecidableEq

/-- The name of a kind of error. -/
def ErrorKind.name : ErrorKind → String
  | source => "syntax"
  | exception => "exception"
  | fatal => "fatal"

/-- An error, with its `trace` and sometimes one line about it, the `detail`. -/
structure ErrorReport where
  kind : ErrorKind
  trace : String
  detail : Option String
  deriving DecidableEq

/-- What a session tells its controller. -/
inductive Message where
  | ready (flag : Bool)
  | step (e : StepEvent)
  | info (text : String)
  | finished (flag : Bool) (output : String)
  | error (e : ErrorReport)
  | waitingForNewCode (flag : Bool)
  | heartbeat (flag : Bool) (command : String)
  deriving DecidableEq

namespace Message

/-- The notice that a program was stopped after the steps that it was allowed (`max_steps`). -/
def maxStepsReached : Message := info "max_steps_reached"

/-- A short name of what a message is. -/
def kind : Message → String
  | ready _ => "ready"
  | step _ => "step"
  | info _ => "info"
  | finished _ _ => "finished"
  | error _ => "error"
  | waitingForNewCode _ => "waiting_for_new_code"
  | heartbeat _ _ => "heartbeat"

/-- The fields of a message, in order. The line about an error, `msg`, is skipped if there is
none. -/
def fields : Message → List (String × Option Json)
  | ready flag => [("ready", some (.bool flag))]
  | step e =>
    [("line", some (.natural e.line)), ("filename", some (.str e.filename)),
      ("vars", some e.vars.toJson), ("output", some (.str e.output))]
  | info text => [("info", some (.str text))]
  | finished flag output => [("finished", some (.bool flag)), ("output", some (.str output))]
  | error e =>
    [("error", some (.str e.kind.name)), ("trace", some (.str e.trace)),
      ("msg", e.detail.map .str)]
  | waitingForNewCode flag => [("waiting_for_new_code", some (.bool flag))]
  | heartbeat flag command => [("heartbeat", some (.bool flag)), ("cmd", some (.str command))]

end Message

namespace Codec

variable (c : Codec)

/-- The line of `m`, with its end. -/
def line (m : Message) : String :=
  c.write (c.ofFields m.fields) ++ "\n"

/-! ## Decoding -/

/-- A name and its text, from `entry`. -/
def binding? (entry : String × Json) : Option (String × String) :=
  (c.str? entry.2).map fun text => (entry.1, text)

/-- The snapshot that `j` is, as an object of strings. -/
def snapshot? (j : Json) : Option Snapshot := do
  return ⟨← (← c.entries? j).mapM c.binding?⟩

/-- The message `{"ready": flag}`. -/
def ready? (j : Json) : Option Message := do
  let [some flag] ← c.caseFields? ["ready"] j | none
  return .ready (← c.bool? flag)

/-- The message of a pause, with `line`, `filename`, `vars` and `output`. -/
def step? (j : Json) : Option Message := do
  let [some line, some filename, some vars, some output] ←
    c.fields? ["line", "filename", "vars", "output"] j | none
  return .step
    ⟨← c.natural? line, ← c.str? filename, ← c.snapshot? vars, ← c.str? output⟩

/-- The message of a notice, `{"info": text}`. -/
def info? (j : Json) : Option Message := do
  let [some text] ← c.caseFields? ["info"] j | none
  return .info (← c.str? text)

/-- The message at the end of a program, with `finished` and `output`. -/
def finished? (j : Json) : Option Message := do
  let [some flag, some output] ← c.caseFields? ["finished", "output"] j | none
  return .finished (← c.bool? flag) (← c.str? output)

/-- A kind of error, by its name. -/
def errorKind? : Json → Option ErrorKind :=
  c.named? ErrorKind.name [.source, .exception, .fatal]

/-- The message of an error, with `error` and `trace`. The line about it, `msg`, may be missing. -/
def error? (j : Json) : Option Message := do
  let [some kind, some trace, detail] ← c.fields? ["error", "trace", "msg"] j | none
  return .error
    ⟨← c.errorKind? kind, ← c.str? trace, ← detail.elim (some none) (c.nullable? c.str?)⟩

/-- The message that calls for new code, `waiting_for_new_code`. -/
def waitingForNewCode? (j : Json) : Option Message := do
  let [some flag] ← c.caseFields? ["waiting_for_new_code"] j | none
  return .waitingForNewCode (← c.bool? flag)

/-- The message of an echo, with `heartbeat` and `cmd`. -/
def heartbeat? (j : Json) : Option Message := do
  let [some flag, some command] ← c.caseFields? ["heartbeat", "cmd"] j | none
  return .heartbeat (← c.bool? flag) (← c.str? command)

/-- The message that a value is: that of the first reader here that takes it. -/
def message? : Json → Option Message :=
  c.first?
    [c.ready?, c.step?, c.info?, c.finished?, c.error?, c.waitingForNewCode?, c.heartbeat?]

/-- The message of the line `text`; blanks around it do not count. -/
def decode (text : String) : Except c.Fault Message :=
  c.read c.message? (Text.trim text)

end Codec

end Stepper
