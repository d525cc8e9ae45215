import Stepper.Proofs.Stmt.ReadFrom
import Stepper.Proofs.Token.Places

/-!
# The lines of statements

* `Program.ShowsLine`: a line that a program has, with something on it.
* `Program.statements_shown`: the lines of the statements of a program and of their branches are
  such lines, as tokens stand on them.
-/

namespace Stepper

/-- The `line`, counted from one, is one of the text of `p`, and there is more on it than blanks. -/
structure Program.ShowsLine (p : Program) (line : Nat) : Prop where
  pos : 1 ≤ line
  le_length : line ≤ p.lines.length
  lineText : ∃ text, p.lineText? line = some text ∧ text ≠ ""

variable {source : String} {p : Program}

/-- A lexeme `l` that is read at its place stands on a line with something on it. -/
theorem Lexeme.ReadIn.showsLine {l : Lexeme} (h : l.ReadIn source.toList)
    (hlines : p.lines = Text.lines source) : p.ShowsLine l.loc.line := by
  obtain ⟨before, c, rest, after, hsource, hloc, -, -, hscan⟩ := h
  have hvisible : Text.isBlank c = false := isBlank_of_scanToken hscan
  have hfeed : c ≠ '\n' := by rintro rfl; exact absurd hvisible (by decide)
  obtain ⟨line, hline, hwhole⟩ := Text.lines_around hfeed hsource
  rw [hloc, Location.past]
  rw [← hlines] at hline
  refine ⟨Nat.le_add_left 1 _, (List.getElem?_eq_some_iff.1 hline).1, Text.trim line, ?_, ?_⟩
  · simp [Program.lineText?, hline]
  · rw [Text.trim, hwhole.trimBoth_eq, Text.trimBoth_around hvisible]
    simp [← String.toList_inj]

namespace Program

/-- Where a token of `p` stands (`Located`), there is something on the line. -/
theorem showsLine_of_located {ls : List Lexeme} {loc : Location} (h : ofSource source = .ok p)
    (hlex : lexemes source.toList = .ok ls) (hloc : Located ls loc) : p.ShowsLine loc.line := by
  obtain ⟨-, -, -, -, hlines⟩ := exists_of_ofSource h
  obtain ⟨l, hl, hlayout, rfl⟩ := hloc
  exact ((lexemes_wellPlaced hlex).read l hl hlayout).showsLine hlines

/-- A statement `s` of `p` and its branches are on lines of the text with something on them. -/
theorem statements_shown (h : ofSource source = .ok p) {around : List Stmt} {s : Stmt}
    (hs : Stands p.body around s) :
    p.ShowsLine s.loc.line ∧ ∀ b ∈ s.branches, p.ShowsLine b.loc.line := by
  obtain ⟨ls, hlex, hread⟩ := ofSource_readFrom h
  obtain ⟨hlocated, hbranches, -⟩ := hread around s hs
  exact ⟨showsLine_of_located h hlex hlocated,
    fun b hb => showsLine_of_located h hlex (hbranches b hb)⟩

end Program

end Stepper
