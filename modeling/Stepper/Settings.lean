import Stepper.Session

/-!
# Settings

* `Settings`: the limits of a session, and where and how much is logged.
* `Settings.read`: the settings that the arguments of a command line and the environment give.

An option is given as `--name value` or `--name=value`. Its value is looked at when the next option
or the end is reached, so an argument that is not known is reported before a bad value in front of
it. The environment counts for the options that the command line leaves out.
-/

namespace Stepper

/-- The options, in the order in which the environment is looked at. -/
inductive Setting where
  | maxSteps | maxOutputChars | maxValueChars | logFile | logLevel
  deriving DecidableEq

namespace Setting

/-- All options. -/
def all : List Setting := [maxSteps, maxOutputChars, maxValueChars, logFile, logLevel]

/-- The name of an option on the command line. -/
def flag : Setting → String
  | maxSteps => "max-steps"
  | maxOutputChars => "max-output-chars"
  | maxValueChars => "max-value-chars"
  | logFile => "log-file"
  | logLevel => "log-level"

/-- The name of an option in the environment. -/
def envName : Setting → String
  | maxSteps => "STEPWISE_MAX_STEPS"
  | maxOutputChars => "STEPWISE_MAX_OUTPUT_CHARS"
  | maxValueChars => "STEPWISE_MAX_VALUE_CHARS"
  | logFile => "STEPWISE_LOG_FILE"
  | logLevel => "STEPWISE_LOG"

end Setting

/-- Why a command line gives no settings. Asking for help or for the version is one reason. -/
inductive UsageError where
  | help | version
  | unknownArgument
  /-- A value for an option that takes none. -/
  | tooManyValues
  /-- No value, or an empty one where there must be text. -/
  | noValue
  | badValue
  | givenTwice
  deriving DecidableEq

/-- The limits of a session, and where and how much is logged. -/
structure Settings where
  limits : Limits
  logFile : String
  logLevel : String
  deriving DecidableEq

/-- The options that are given. -/
structure Choices where
  maxSteps : Option Nat
  maxOutputChars : Option Nat
  maxValueChars : Option Nat
  logFile : Option String
  logLevel : Option String

namespace Choices

/-- No option is given. -/
def empty : Choices := ⟨none, none, none, none, none⟩

/-- Whether `c` has a value for an option. -/
def has (c : Choices) : Setting → Bool
  | .maxSteps => c.maxSteps.isSome
  | .maxOutputChars => c.maxOutputChars.isSome
  | .maxValueChars => c.maxValueChars.isSome
  | .logFile => c.logFile.isSome
  | .logLevel => c.logLevel.isSome

/-- The number of 64 bits that `text` is. -/
def count (text : String) : Except UsageError Nat :=
  match Number.word64? text.toList with
  | some n => .ok n
  | none => .error .badValue

/-- Gives the option `s` the value `text`. -/
def set (c : Choices) (s : Setting) (text : String) : Except UsageError Choices :=
  match s with
  | .maxSteps => do return { c with maxSteps := some (← count text) }
  | .maxOutputChars => do return { c with maxOutputChars := some (← count text) }
  | .maxValueChars => do return { c with maxValueChars := some (← count text) }
  | .logFile => if text.isEmpty then .error .noValue else .ok { c with logFile := some text }
  | .logLevel => .ok { c with logLevel := some text }

/-- The settings of `c`, where an option that is not given has its usual value. -/
def settings (c : Choices) : Settings where
  limits :=
    { maxSteps := c.maxSteps.getD Limits.default.maxSteps
      maxOutputChars := c.maxOutputChars.getD Limits.default.maxOutputChars
      maxValueChars := c.maxValueChars.getD Limits.default.maxValueChars }
  logFile := c.logFile.getD "debugger_log.txt"
  logLevel := c.logLevel.getD "info"

end Choices

/-- An argument of a command line. -/
inductive Argument where
  /-- Two hyphens alone: no option comes after them. -/
  | endOfOptions
  | long (name : String) (value : Option String)
  | short (letters : List Char)
  | plain (text : String)

/-- What the argument `text` is. -/
def Argument.ofText (text : String) : Argument :=
  match text.toList with
  | ['-', '-'] => endOfOptions
  | '-' :: '-' :: rest =>
    let name := String.ofList (rest.takeWhile (· != '='))
    match rest.dropWhile (· != '=') with
    | [] => long name none
    | _ :: value => long name (some (String.ofList value))
  | '-' :: c :: rest => short (c :: rest)
  | _ => plain text

namespace Settings

/-- An option that has been named, and its value if that has come; or `none`. -/
abbrev Pending := Option (Setting × Option String)

/-- Gives the option that has been named its value. It fails if none has come, or if `c` has one. -/
def settle (c : Choices) : Pending → Except UsageError Choices
  | none => .ok c
  | some (_, none) => .error .noValue
  | some (s, some text) => if c.has s then .error .givenTwice else c.set s text

/-- The request that a letter stands for. -/
def ofLetter : Char → UsageError
  | 'h' => .help
  | 'V' => .version
  | _ => .unknownArgument

/-- The request that `--name` stands for; it takes no `value`. -/
def ofWord (name : String) (value : Option String) : UsageError :=
  if name = "help" || name = "version" then
    if value.isSome then .tooManyValues else if name = "help" then .help else .version
  else .unknownArgument

/-- Fails for `reason`; a request is only answered if the options before it are fine. -/
def refuse (c : Choices) (pending : Pending) (reason : UsageError) : Except UsageError α :=
  match reason with
  | .help | .version => do
    let _ ← settle c pending
    .error reason
  | _ => .error reason

/-- The options that arguments give, after those in `c` and the one that is `pending`. -/
def readArguments (c : Choices) (pending : Pending) : List String → Except UsageError Choices
  | [] => settle c pending
  | arg :: rest =>
    match Argument.ofText arg with
    | .endOfOptions => if rest.isEmpty then settle c pending else .error .unknownArgument
    | .short letters => refuse c pending (ofLetter (letters.headD ' '))
    | .plain text =>
      match pending with
      | some (s, none) => readArguments c (some (s, some text)) rest
      | _ => .error .unknownArgument
    | .long name value =>
      match Setting.all.find? (·.flag == name) with
      | none => refuse c pending (ofWord name value)
      | some s => do
        let c ← settle c pending
        match value with
        | none => readArguments c (some (s, none)) rest
        | some _ => readArguments (← settle c (some (s, value))) none rest

/-- The options `c`, with those of the environment `env` that are not given yet. -/
def readVariables (env : String → Option String) (c : Choices) :
    List Setting → Except UsageError Choices
  | [] => .ok c
  | s :: rest =>
    match env s.envName with
    | some text => do
      let c ← if c.has s then .ok c else c.set s text
      readVariables env c rest
    | none => readVariables env c rest

/-- The settings that the arguments `args` and the environment `env` give. -/
def read (args : List String) (env : String → Option String) : Except UsageError Settings := do
  let c ← readArguments .empty none args
  return (← readVariables env c Setting.all).settings

end Settings

end Stepper
