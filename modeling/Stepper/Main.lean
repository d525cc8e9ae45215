import Stepper.CommandLine

/-!
# The program

Serves one session on the standard input and output.
-/

namespace Stepper

/-- The bytes up to the next line feed or the end of the input, after those already read. -/
partial def readBytes (input : IO.FS.Stream) (bytes : ByteArray) : IO ByteArray := do
  let next ← input.read 1
  if next.isEmpty then return bytes
  let bytes := bytes ++ next
  if next.toList = [lineFeed] then return bytes else readBytes input bytes

/-- The action `act`, whose failure is a value. -/
def failing (act : IO α) : IO (Except String α) :=
  try
    return .ok (← act)
  catch e =>
    return .error (toString e)

/-- The channel of the standard `input` and `output`, for lines of JSON. -/
def consoleEndpoint (input output : IO.FS.Stream) : Endpoint IO where
  codec := Json.codec
  takeLine := failing do return (← readBytes input .empty).toList
  write line := failing do
    output.putStr line
    output.flush
  linesLeft := return 2 ^ 63

/-- The environment's values of the options, by `envName`. -/
def environment : IO (List (String × String)) := do
  let values ← Setting.all.mapM fun s => do
    return (← IO.getEnv s.envName).map (s.envName, ·)
  return values.filterMap id

/-- Serves a session, or says why not; `args` are those of the command line. Gives the exit code. -/
def runWith (args : List String) : IO UInt32 := do
  let env ← environment
  match Start.of (Settings.read args fun name => env.lookup name) with
  | .quit code out err =>
    (← IO.getStdout).putStr out
    (← IO.getStderr).putStr err
    return code.toUInt32
  | .session settings =>
    return (← serve (consoleEndpoint (← IO.getStdin) (← IO.getStdout)) settings.limits).toUInt32

end Stepper

/-- The program. -/
def main (args : List String) : IO UInt32 :=
  Stepper.runWith args
