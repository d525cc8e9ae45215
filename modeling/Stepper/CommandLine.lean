import Stepper.Json.Codec
import Stepper.Settings

/-!
# The command line

* `Start`: what the program does: it serves a session, or it says something and ends.
* `serve`: serves a session and yields the exit code: zero, or one if the channel has failed.
-/

namespace Stepper

/-- What the program does with its arguments. -/
inductive Start where
  | session (settings : Settings)
  /-- Ends with an exit code after writing to the standard output and to the standard error. -/
  | quit (code : UInt8) (out err : String)

/-- The version that is told. -/
def versionText : String := "stepwise 0.1.0\n"

/-- How the program is called: a line for each of `Setting.all`. -/
def usageText : String :=
  "Usage: stepwise [OPTIONS]\n\n" ++
    String.join (Setting.all.map fun s =>
      "  --" ++ s.flag ++ " <value>  [env: " ++ s.envName ++ "]\n")

/-- What is wrong with a command line. -/
def UsageError.message : UsageError → String
  | help | version => ""
  | unknownArgument => "unexpected argument"
  | tooManyValues => "a value for an option that takes none"
  | noValue => "an option without its value"
  | badValue => "an invalid value for an option"
  | givenTwice => "an option that is given twice"

/-- What the program does with the settings, or with an error, that its command line gives. -/
def Start.of : Except UsageError Settings → Start
  | .ok settings => session settings
  | .error .help => quit 0 usageText ""
  | .error .version => quit 0 versionText ""
  | .error e => quit 2 "" ("error: " ++ e.message ++ "\n\n" ++ usageText)

/-- Serves a session at `p` within `limits`; the exit code tells whether the channel has held. -/
def serve {m : Type → Type} [Monad m] (p : Endpoint m) (limits : Limits) : m UInt8 := do
  let (result, _) ← (Session.serveReporting p).run (Session.new limits)
  return match result with
    | .ok () => 0
    | .error _ => 1

end Stepper
