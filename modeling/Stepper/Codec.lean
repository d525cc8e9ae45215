import Stepper.Json

/-!
# Codecs

* `Codec`: how values become texts, and how records and cases of a sum are read from values. What
  the messages of a session need of a library for that is a parameter of theirs.
* `Codec.Lawful`: what is documented of such a library.

A codec knows nothing of messages: which fields a record has, which cases are tried and in what
order, is said where it is used.
-/

namespace Stepper

/-- How values are written and read. `write` does not fail, since all keys are strings. -/
structure Codec where
  /-- Why a text is refused. -/
  Fault : Type
  /-- The text of a value. -/
  write : Json → String
  /-- What `f` finds in the value of a text. -/
  read {α : Type} (f : Json → Option α) (text : String) : Except Fault α
  /-- The value of a record. A field that is skipped has none. -/
  ofFields : List (String × Option Json) → Json
  /-- The values of the fields with these names, from a record; a field may be missing. -/
  fields? : List String → Json → Option (List (Option Json))
  /-- The values of the fields with these names, from a case of a sum. -/
  caseFields? : List String → Json → Option (List (Option Json))
  /-- The first of several cases in whose form a value is. -/
  first? {α : Type} : List (Json → Option α) → Json → Option α
  /-- One of several cases without fields, from its name. -/
  named? {α : Type} (name : α → String) : List α → Json → Option α
  /-- The entries of a map, in their order. -/
  entries? : Json → Option (List (String × Json))
  /-- Nothing, or what `f` finds. -/
  nullable? {α : Type} (f : Json → Option α) : Json → Option (Option α)
  bool? : Json → Option Bool
  str? : Json → Option String
  /-- A natural number of 64 bits. -/
  natural? : Json → Option Nat

namespace Codec

/-- What is documented of a codec `c`: how it lays out the text of a value, that `c.read` gives back
what `c.write` has written, and what it finds in values of the form that is expected. Of other
values it only matters that a field that is not there is not found. -/
structure Lawful (c : Codec) : Prop where
  write_null : c.write .null = "null"
  write_bool (b : Bool) : c.write (.bool b) = if b then "true" else "false"
  write_natural (n : Nat) : c.write (.natural n) = toString n
  /-- The control characters of a string are escaped. -/
  write_str (s : String) : ∀ ch ∈ (c.write (.str s)).toList, ' ' ≤ ch
  /-- There are commas between the items of a list, and no blanks. -/
  write_list (items : List Json) :
    c.write (.list items) = "[" ++ ",".intercalate (items.map c.write) ++ "]"
  /-- The entries of an object are written in their order, also those with one key. -/
  write_object (entries : List (String × Json)) :
    c.write (.object entries) =
      "\x7b" ++
        ",".intercalate
          (entries.map fun (key, value) => c.write (.str key) ++ ":" ++ c.write value) ++
        "\x7d"
  /-- What is written of a value is read as that value. -/
  read_write {j : Json} (h : Json.Plain Json.depthLimit j) {α : Type} {f : Json → Option α} {a : α}
    (hf : f j = some a) : c.read f (c.write j) = .ok a
  /-- A record is an object of the fields that are not skipped, in their order. -/
  ofFields_eq (fields : List (String × Option Json)) :
    c.ofFields fields = .object (fields.filterMap fun (name, value) => value.map (name, ·))
  /-- Fields are found by their names, and what has another name is passed over. -/
  fields?_object {entries : List (String × Json)} (h : (entries.map (·.1)).Nodup)
    (names : List String) :
    c.fields? names (.object entries) = some (names.map fun name => entries.lookup name)
  caseFields?_object {entries : List (String × Json)} (h : (entries.map (·.1)).Nodup)
    (names : List String) :
    c.caseFields? names (.object entries) = some (names.map fun name => entries.lookup name)
  /-- The cases are tried in their order. -/
  first?_eq {α : Type} (cases : List (Json → Option α)) (j : Json) :
    c.first? cases j = cases.findSome? (· j)
  named?_str {α : Type} {name : α → String} {cases : List α} (h : (cases.map name).Nodup) {a : α}
    (ha : a ∈ cases) : c.named? name cases (.str (name a)) = some a
  /-- No entry of a map is dropped, also if several have one key. -/
  entries?_object (entries : List (String × Json)) : c.entries? (.object entries) = some entries
  nullable?_str {α : Type} (f : Json → Option α) (s : String) :
    c.nullable? f (.str s) = (f (.str s)).map some
  bool?_bool (b : Bool) : c.bool? (.bool b) = some b
  str?_str (s : String) : c.str? (.str s) = some s
  natural?_natural {n : Nat} (h : n < 2 ^ 64) : c.natural? (.natural n) = some n

end Codec

end Stepper
