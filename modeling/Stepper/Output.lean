/-!
# Output

* `Output`: what a program has printed: all of it, and a window that ends where it ends.
* `Output.write`: appends a text to both.
* `Output.trim`: shortens the window from the front. Lengths count characters.
-/

namespace Stepper

/-- What a program has printed: the whole `transcript`, and the `window` of its end. -/
structure Output where
  /-- The end of the transcript that has not been trimmed away. -/
  window : String
  /-- Everything. -/
  transcript : String

namespace Output

/-- Nothing printed yet. -/
def empty : Output := ⟨"", ""⟩

/-- Appends `text` to both. -/
def write (o : Output) (text : String) : Output :=
  ⟨o.window ++ text, o.transcript ++ text⟩

/-- How many characters of the window are more than `keep`. -/
def excess (o : Output) (keep : Nat) : Nat :=
  o.window.length - keep

/-- The output with the last `keep` characters of the window. -/
def trim (o : Output) (keep : Nat) : Output :=
  if o.excess keep = 0 then o
  else { o with window := String.ofList (o.window.toList.drop (o.excess keep)) }

end Output

end Stepper
