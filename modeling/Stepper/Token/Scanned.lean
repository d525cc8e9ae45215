/-!
# Results of scanners

* `Scanned`: what a scanner found, the characters it took, and the characters it left.
* `Scanned.all`: all that it saw. A scanner that loses nothing leaves less than it was given as
  soon as it takes something (`Scanned.length_lt`).
-/

namespace Stepper

/-- What a scanner found (`value`), the characters it took (`text`), and the characters after them
(`rest`). -/
structure Scanned (α : Type) where
  value : α
  text : List Char
  rest : List Char

namespace Scanned

/-- The same characters with `f` of the result. -/
def map (f : α → β) (s : Scanned α) : Scanned β :=
  { s with value := f s.value }

/-- With `c` in front of the characters that were taken. -/
def put (c : Char) (s : Scanned α) : Scanned α :=
  { s with text := c :: s.text }

/-- What a scanner `found`, or nothing taken of `cs` if it found nothing. -/
def optional (found : Option (Scanned α)) (cs : List Char) : Scanned (Option α) :=
  match found with
  | some s => s.map some
  | none => ⟨none, [], cs⟩

/-- All that the scanner saw: what `s` took and what it left. -/
def all (s : Scanned α) : List Char :=
  s.text ++ s.rest

@[simp] theorem all_map (f : α → β) (s : Scanned α) : (s.map f).all = s.all := rfl

@[simp] theorem all_put (c : Char) (s : Scanned α) : (s.put c).all = c :: s.all := rfl

@[simp] theorem all_mk_nil (value : α) (cs : List Char) : (mk value [] cs).all = cs := rfl

@[simp] theorem all_mk_cons (value : α) (c : Char) (text cs : List Char) :
    (mk value (c :: text) cs).all = c :: (mk value text cs).all := rfl

theorem all_optional {found : Option (Scanned α)} {cs : List Char}
    (h : ∀ s, found = some s → s.all = cs) : (optional found cs).all = cs := by
  cases found with
  | none => rfl
  | some s => simpa [optional] using h s rfl

theorem length_le {s : Scanned α} {cs : List Char} (h : s.all = cs) :
    s.rest.length ≤ cs.length := by
  simp [← h, all]

theorem length_lt {s : Scanned α} {cs : List Char} (h : s.all = cs) (ht : s.text ≠ []) :
    s.rest.length < cs.length := by
  have := List.length_pos_iff.2 ht
  simp only [← h, all, List.length_append]
  omega

end Scanned

end Stepper
