import Stepper.Text.Blank
import Stepper.Text.Case

/-!
# Commands

* `Command`: what a controller may answer at a pause. Blanks around a command and its case do not
  count, and a blank line is no command.
* `PostRunCommand`: what it may say after the program has ended.
-/

namespace Stepper

/-- The `line` as a command: without the blanks around it, in lower case. -/
def commandWord (line : String) : String :=
  Text.lower (Text.trim line)

/-- An answer at a pause. -/
inductive Command where
  | step | next | goOn | stop
  /-- Any other text; it counts as `step`. -/
  | unrecognized (text : String)
  deriving DecidableEq

/-- The command that `line` stands for; a blank one stands for none. -/
def Command.ofLine? (line : String) : Option Command :=
  match commandWord line with
  | "" => none
  | "step" => some step
  | "next" => some next
  | "continue" => some goOn
  | "stop" => some stop
  | word => some (unrecognized word)

/-- A command after the program has ended. -/
inductive PostRunCommand where
  | exit | restart
  /-- Any other text, which may be empty. -/
  | other (text : String)
  deriving DecidableEq

/-- The command that `line` stands for, after the program has ended. -/
def PostRunCommand.ofLine (line : String) : PostRunCommand :=
  match commandWord line with
  | "exit" => exit
  | "restart" => restart
  | word => other word

end Stepper
