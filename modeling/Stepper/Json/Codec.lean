import Stepper.Channel
import Stepper.Json.Reader
import Stepper.Json.Writer

/-!
# JSON as a codec

* `Json.codec`: what is written by `Json.render` and read by `Json.read`. A record may also be a
  list of its fields, and none of its own keys may stand twice; other keys may stand beside them.
* `Message.line`, `Message.decode`: messages as lines of JSON.
* `Wire.endpoint`: a channel in memory for such lines.
-/

namespace Stepper

/-- Why a text is refused. -/
inductive DecodeFault where
  | json (fault : JsonFault)
  /-- The value at the start of the text is not the one that is expected, whatever follows it. -/
  | unfit
  deriving DecidableEq

namespace Json

/-- What `f` finds in the value of a text. Nothing but blanks may follow the value. -/
def readWith (f : Json → Option α) (text : String) : Except DecodeFault α :=
  match read text.toList with
  | .error fault => .error (.json fault)
  | .ok (value, rest) =>
    match f value with
    | none => .error .unfit
    | some a => if rest.all Reader.isSpace then .ok a else .error (.json .malformed)

/-- The value of `key` in `entries`, unless `key` stands there twice; it may be missing. -/
def atMostOne? (entries : List (String × Json)) (key : String) : Option (Option Json) :=
  match entries.filter (·.1 == key) with
  | [] => some none
  | [(_, value)] => some (some value)
  | _ => none

/-- The values of the fields `names`, from an object. -/
def objectFields? (names : List String) : Json → Option (List (Option Json))
  | object entries => names.mapM (atMostOne? entries)
  | _ => none

/-- The values of the fields `names`, from an object or from a list of them, of which the last may
be missing. -/
def recordFields? (names : List String) : Json → Option (List (Option Json))
  | list items =>
    if items.length ≤ names.length then
      some (items.map some ++ List.replicate (names.length - items.length) none)
    else none
  | j => objectFields? names j

/-- One of `cases`, none of which has fields: its `name`, or an object with this name as the only
key and `null` under it. -/
def named? (name : α → String) (cases : List α) : Json → Option α
  | str s => cases.find? (name · == s)
  | object [(s, null)] => cases.find? (name · == s)
  | _ => none

/-- Nothing, or what `f` finds. -/
def nullable? (f : Json → Option α) : Json → Option (Option α)
  | null => some none
  | j => (f j).map some

/-- The entries that an object has. -/
def entries? : Json → Option (List (String × Json))
  | object entries => some entries
  | _ => none

/-- The truth value that a value is. -/
def bool? : Json → Option Bool
  | bool b => some b
  | _ => none

/-- The text that a value is. -/
def str? : Json → Option String
  | str s => some s
  | _ => none

/-- The number that a value is, if it is a natural number of 64 bits without sign, fraction and
exponent. -/
def natural? : Json → Option Nat
  | number text => (Number.short? text.toList).filter (· < 2 ^ 64)
  | _ => none

/-- JSON as a codec, with `render` and `readWith`. -/
def codec : Codec where
  Fault := DecodeFault
  write := render
  read := readWith
  ofFields fields := object (fields.filterMap fun (name, value) => value.map (name, ·))
  fields? := recordFields?
  caseFields? := objectFields?
  first? cases j := cases.findSome? (· j)
  named? := named?
  entries? := entries?
  nullable? := nullable?
  bool? := bool?
  str? := str?
  natural? := natural?

end Json

/-- The snapshot that an object of strings is. -/
def Snapshot.ofJson? : Json → Option Snapshot :=
  Json.codec.snapshot?

/-- The line of `m` as JSON, with its end. -/
def Message.line (m : Message) : String :=
  Json.codec.line m

/-- The message of the line `text`; blanks around it do not count. -/
def Message.decode (text : String) : Except DecodeFault Message :=
  Json.codec.decode text

/-- The ends of a channel in memory for lines of JSON. -/
def Wire.endpoint : Endpoint (StateM Wire) :=
  Wire.endpointWith Json.codec

end Stepper
