/-!
# Locations in a source text

* `Location`: a line and a column, both counted from one. Columns count characters.
* `Location.after`: where one stands after reading some characters.
-/

namespace Stepper

/-- A place in a source text: `line` and `column`, both counted from one. -/
structure Location where
  line : Nat
  column : Nat
  deriving DecidableEq, Inhabited

namespace Location

/-- The first character of a text. -/
def start : Location := ⟨1, 1⟩

/-- The place after `c`, which stands at `loc`: a line feed opens the next line. -/
def next (loc : Location) (c : Char) : Location :=
  if c = '\n' then ⟨loc.line + 1, 1⟩ else ⟨loc.line, loc.column + 1⟩

/-- The place after `text`, which starts at `loc`. -/
def after (loc : Location) (text : List Char) : Location :=
  text.foldl next loc

@[simp] theorem after_nil (loc : Location) : loc.after [] = loc := rfl

@[simp] theorem after_cons (loc : Location) (c : Char) (text : List Char) :
    loc.after (c :: text) = (loc.next c).after text := rfl

theorem after_append (loc : Location) (s t : List Char) :
    loc.after (s ++ t) = (loc.after s).after t :=
  List.foldl_append

end Location

end Stepper
