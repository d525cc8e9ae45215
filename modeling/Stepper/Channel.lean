import Stepper.Command
import Stepper.Message

/-!
# Channels

* `Endpoint`: how bytes come from a controller and lines go to it, in some monad.
* `ChannelError`: reading or writing has failed, and why.
* `Endpoint.readLine`, `Endpoint.send`: a line of text, and a message.
* `Wire`: a channel in memory: bytes that have not been read, and lines that have been written.
-/

namespace Stepper

/-- A failure of a channel, with its cause. -/
inductive ChannelError where
  | read (cause : String)
  | write (cause : String)
  deriving DecidableEq

namespace ChannelError

/-- What has failed. -/
def message : ChannelError → String
  | read _ => "failed to read from control channel"
  | write _ => "failed to write to control channel"

/-- Why it has failed. -/
def cause : ChannelError → String
  | read cause | write cause => cause

/-- The failure and its cause, each on a line. -/
def trace (e : ChannelError) : String :=
  e.message ++ "\nCaused by: " ++ e.cause

end ChannelError

/-- The two ends of a channel. -/
structure Endpoint (m : Type → Type) where
  /-- How messages are written. -/
  codec : Codec
  /-- Takes the bytes of the next line, with its line feed if it has one; none are left at the end
  of the input. -/
  takeLine : m (Except String (List UInt8))
  /-- Writes a line. -/
  write : String → m (Except String Unit)
  /-- No more lines than this will come. -/
  linesLeft : m Nat

/-- A calculation that uses a channel in `m`, and may fail as `ChannelError`. -/
abbrev Channel (m : Type → Type) (α : Type) := ExceptT ChannelError m α

/-- The byte of a line feed. -/
def lineFeed : UInt8 := 10

/-- The `line` without its end: a line feed, or a carriage return and a line feed. -/
def withoutEnd (line : List Char) : List Char :=
  match line.reverse with
  | '\n' :: '\r' :: rest => rest.reverse
  | '\n' :: rest => rest.reverse
  | _ => line

/-- The text of a line from its `bytes`; there is no line if there are no bytes. -/
def textOfLine (bytes : List UInt8) : Except ChannelError (Option String) :=
  if bytes.isEmpty then .ok none
  else
    match String.fromUTF8? bytes.toByteArray with
    | some text => .ok (some (String.ofList (withoutEnd text.toList)))
    | none => .error (.read "stream did not contain valid UTF-8")

namespace Endpoint

variable {m : Type → Type} [Monad m]

/-- The next line, or `none` at the end of the input. A line that is no text is taken all the
same. -/
def readLine (p : Endpoint m) : Channel m (Option String) := ExceptT.mk do
  match ← p.takeLine with
  | .ok bytes => return textOfLine bytes
  | .error cause => return .error (.read cause)

/-- The next command; a blank line is `none`, as is the end of the input. -/
def readCommand (p : Endpoint m) : Channel m (Option Command) := do
  return (← p.readLine).bind Command.ofLine?

/-- The next command after the program has ended, or `none` at the end of the input. -/
def readPostRun (p : Endpoint m) : Channel m (Option PostRunCommand) := do
  return (← p.readLine).map PostRunCommand.ofLine

/-- Writes the line of `message`. -/
def send (p : Endpoint m) (message : Message) : Channel m Unit := ExceptT.mk do
  match ← p.write (p.codec.line message) with
  | .ok () => return .ok ()
  | .error cause => return .error (.write cause)

end Endpoint

/-- A channel in memory. -/
structure Wire where
  /-- The bytes that have not been read. -/
  unread : List UInt8
  /-- The lines that have been written. -/
  sent : Array String
  /-- How many lines can still be written, if there is a limit. -/
  writesLeft : Option Nat

namespace Wire

/-- A channel with `input` to read, to which nothing has been written. After `writesLeft` lines
writing fails, if that is given. -/
def ofInput (input : List UInt8) (writesLeft : Option Nat) : Wire :=
  ⟨input, #[], writesLeft⟩

/-- The `bytes` of a line at the front, with its line feed, and the bytes after it. -/
def splitLine (bytes : List UInt8) : List UInt8 × List UInt8 :=
  let line := bytes.takeWhile (· != lineFeed)
  match bytes.dropWhile (· != lineFeed) with
  | [] => (line, [])
  | feed :: rest => (line ++ [feed], rest)

/-- The bytes of the next line, and the channel `w` without them. -/
def takeLine (w : Wire) : List UInt8 × Wire :=
  let (line, rest) := splitLine w.unread
  (line, { w with unread := rest })

/-- Writes `line`, unless `w.writesLeft` is used up. -/
def write (w : Wire) (line : String) : Except String Unit × Wire :=
  match w.writesLeft with
  | some 0 => (.error "closed", w)
  | some (n + 1) => (.ok (), { w with sent := w.sent.push line, writesLeft := some n })
  | none => (.ok (), { w with sent := w.sent.push line })

/-- The ends of a channel in memory, `Wire`, for messages that are written by `codec`. -/
def endpointWith (codec : Codec) : Endpoint (StateM Wire) where
  codec := codec
  takeLine := fun w => let (line, w) := w.takeLine; (.ok line, w)
  write line := fun w => w.write line
  linesLeft := fun w => (w.unread.length, w)

end Wire

end Stepper
