import Stepper.Execution

/-!
# Manners of running

Every run of a program does the same acts in the same order. How it is run besides is a manner: what
comes before an act, how control stands at a line, and how the body of a call is put into its frame.

* `Held`: what an act works on besides the state. `Watch`: what comes before acts.
* `Watch.before`: an act under watch; `Watch.silent` adds nothing to it.
* `Manner`: a manner of running. `Manner.watched` puts a watch before each act, and
  `Manner.plain`, which adds nothing, is how programs are run.
-/

namespace Stepper

/-- What an act works on besides the state. -/
inductive Held where
  | value (v : Value)
  /-- The values that a loop walks over. -/
  | values (vs : Array Value)
  /-- The entries of a dict display so far. -/
  | entries (d : Dict)

/-- What comes before an act that works on `held`. -/
abbrev Watch := List Held → Evaluation Unit

namespace Watch

/-- Nothing comes before an act. -/
def silent : Watch := fun _ => pure ()

/-- The act, after `watch held`. -/
def before (watch : Watch) (held : List Held) (act : Evaluation α) : Evaluation α := do
  watch held
  act

@[simp] theorem before_silent (held : List Held) (act : Evaluation α) :
    silent.before held act = act := rfl

end Watch

/-- A manner of running: what comes before each act (`watch`), and how the body of a statement or of
a call is run. -/
structure Manner where
  /-- Comes before each act. -/
  watch : Watch
  /-- Does `body` for a statement or an arm whose line is `loc.line`. -/
  atLine {α : Type} (loc : Location) (body : Evaluation α) : Evaluation α
  /-- Runs the body of a call that starts in `frame`. -/
  inFrame {α : Type} (frame : Frame) (body : Evaluation α) : Evaluation α

namespace Manner

/-- Each act comes after `watch`; lines and frames are as in any run. -/
def watched (watch : Watch) : Manner := ⟨watch, fun _ body => body, Evaluation.inFrame⟩

/-- Nothing is added to the acts. -/
def plain : Manner := watched .silent

variable (watch : Watch) (loc : Location) (frame : Frame) (body : Evaluation α)

@[simp] theorem watch_watched : (watched watch).watch = watch := rfl

@[simp] theorem atLine_watched : (watched watch).atLine loc body = body := rfl

@[simp] theorem inFrame_watched : (watched watch).inFrame frame body = .inFrame frame body := rfl

@[simp] theorem watch_plain : plain.watch = .silent := rfl

@[simp] theorem atLine_plain : plain.atLine loc body = body := rfl

@[simp] theorem inFrame_plain : plain.inFrame frame body = .inFrame frame body := rfl

end Manner

end Stepper
