import Stepper.SyntaxError
import Stepper.Token.Scanned

/-!
# Indentation

* `Indent`: the blanks at the start of a line, measured twice: with tabs that reach to a tab stop
  and with tabs of one column.
* `Indent.enter`: the layout tokens of a line, by its indentation and those around it. The two
  measures must tell the same of every line.
-/

namespace Stepper

/-- The blanks at the start of a line: `width` measures them with wide tabs, and `narrowWidth` with
tabs of one column. -/
structure Indent where
  width : Nat
  narrowWidth : Nat
  deriving DecidableEq, Inhabited

namespace Indent

/-- No indentation. -/
def none : Indent := ⟨0, 0⟩

/-- One blank more: a tab goes to the next multiple of `tabStop`, and a form feed starts over. -/
def next (tabStop : Nat) (indent : Indent) (c : Char) : Indent :=
  if c = '\t' then ⟨(indent.width / tabStop + 1) * tabStop, indent.narrowWidth + 1⟩
  else if c = '\x0c' then none
  else ⟨indent.width + 1, indent.narrowWidth + 1⟩

/-- The indentation at the start of a line, after the blanks already measured, which are
`indent`. -/
def scan (tabStop : Nat) (indent : Indent) : List Char → Scanned Indent
  | [] => ⟨indent, [], []⟩
  | c :: rest =>
    if c = ' ' || c = '\t' || c = '\x0c' then (scan tabStop (indent.next tabStop c) rest).put c
    else ⟨indent, [], c :: rest⟩

/-- The layout tokens of a line that starts with `indent`, and the indentations that are open after
it. A deeper line opens one; any other closes those of `levels` that are wider, and must then agree
with the innermost left. Both measures must tell the same. -/
def enter (levels : List Indent) (indent : Indent) :
    Except SyntaxFault (List Token × List Indent) :=
  let current := levels.headD none
  if current.width < indent.width then
    if indent.narrowWidth ≤ current.narrowWidth then .error .inconsistentIndentation
    else .ok ([.indent], indent :: levels)
  else
    let closed := levels.takeWhile (indent.width < ·.width)
    let outer := levels.dropWhile (indent.width < ·.width)
    if indent.width ≠ (outer.headD none).width then .error .unmatchedIndentation
    else if indent.narrowWidth ≠ (outer.headD none).narrowWidth then .error .inconsistentIndentation
    else .ok (closed.map fun _ => .dedent, outer)

end Indent

/-- The columns between two tab stops. -/
def standardTabStop : Nat := 8

@[simp] theorem Indent.scan_all (tabStop : Nat) (indent : Indent) (cs : List Char) :
    (Indent.scan tabStop indent cs).all = cs := by
  fun_induction Indent.scan tabStop indent cs <;> simp_all

end Stepper
