import Stepper.Program
import Stepper.Proofs.Text.Lines

/-!
# Where the caret of a syntax error stands

* `SyntaxTrace.render_of_line`: the report of an error on a line of the text.
* `SyntaxTrace.caretOffset_eq`: how many spaces stand before the caret.
* `Program.caret_under_fault`: the caret is under the very character at which the program was found
  to be wrong, after as many spaces as the shown line has characters before that one.
-/

namespace Stepper

namespace SyntaxTrace

variable {source message line : String} {before after : List Char} {c : Char}

/-- The report of an error on a line that the text has: `line` without the blanks around it, and
below it the caret. -/
theorem render_of_line {t : SyntaxTrace} (h : t.sourceLine = some line) :
    t.render = "  File \"<source>\", line " ++ toString t.loc.line ++ "\n" ++
      "    " ++ Text.trim line ++ "\n" ++
      "    " ++ String.ofList (List.replicate (t.caretOffset line) ' ') ++ "^\n" ++
      "SyntaxError: " ++ t.message := by
  rw [← String.toList_inj]
  simp [render, h, sourceName, summary]

/-- The caret is as far from the start of the shown line as the place from the first character of
`line` that is not blank. `Text.trimStart` takes the same characters from `line` as `dropWhile` does
from `Text.lineSoFar before`, since `c` stops both. -/
theorem caretOffset_eq {t : SyntaxTrace} (hline : line.toList = Text.lineSoFar before ++ c :: after)
    (hloc : t.loc = .past before) (hvisible : Text.isBlank c = false) :
    t.caretOffset line = ((Text.lineSoFar before).dropWhile Text.isBlank).length := by
  have hle := (List.dropWhile_sublist Text.isBlank (l := Text.lineSoFar before)).length_le
  have hstart := Text.dropWhile_around hvisible (Text.lineSoFar before) after
  rw [caretOffset, hloc, Location.past, Text.trimStart, ← String.length_toList,
    ← String.length_toList, String.toList_ofList, hline, hstart]
  simp only [List.length_append, List.length_cons]
  omega

end SyntaxTrace

/-- A character `c` that is no carriage return is on its line also where `Text.IsLine` leaves one
out at the end. -/
theorem Text.IsLine.exists_around {line before after : List Char} {c : Char}
    (h : IsLine line (before ++ c :: after)) (hc : c ≠ '\r') :
    ∃ more, line = before ++ c :: more := by
  rcases h with h | h
  · exact ⟨after, h.symm⟩
  · rcases List.eq_nil_or_concat after with rfl | ⟨more, d, rfl⟩
    · exact absurd (List.append_inj' h rfl).2 (by simpa using hc)
    · rw [List.concat_eq_append] at h
      have hsplit : before ++ c :: (more ++ [d]) = (before ++ c :: more) ++ [d] := by simp
      rw [hsplit] at h
      exact ⟨more, (List.append_inj' h rfl).1.symm⟩

/-- Where a text is found to be no program at a character `c` that is not blank, the report shows
the line of that character without the blanks around it, and below it a caret after `k` spaces. The
`k` characters of the shown line before `c` are `Text.lineSoFar before` without leading blanks, so
the caret is under this `c` and not under another one on the line. -/
theorem Program.caret_under_fault {source : String} {e : SyntaxError} {before after : List Char}
    {c : Char} (hfails : ofSource source = .error e)
    (hsource : source.toList = before ++ c :: after)
    (hloc : e.loc = .past before) (hvisible : Text.isBlank c = false) :
    ∃ shown k,
      (ofSource source).mapError (fun e => (e.trace source).render) = .error
        ("  File \"<source>\", line " ++ toString e.loc.line ++ "\n" ++
          "    " ++ shown ++ "\n" ++
          "    " ++ String.ofList (List.replicate k ' ') ++ "^\n" ++
          "SyntaxError: " ++ e.fault.message) ∧
      shown = Text.trim (String.ofList (Text.lineSoFar before ++ c :: Text.lineFrom after)) ∧
      k = ((Text.lineSoFar before).dropWhile Text.isBlank).length ∧
      shown.toList[k]? = some c := by
  have hfeed : c ≠ '\n' := by rintro rfl; exact absurd hvisible (by decide)
  have hreturn : c ≠ '\r' := by rintro rfl; exact absurd hvisible (by decide)
  obtain ⟨line, hline, hwhole⟩ := Text.lines_around hfeed hsource
  obtain ⟨more, hmore⟩ := hwhole.exists_around hreturn
  have hshown : (e.trace source).sourceLine = some line := by
    rw [SyntaxError.trace, SyntaxTrace.of, hloc]
    simpa [Location.past] using hline
  refine ⟨Text.trim line, ((Text.lineSoFar before).dropWhile Text.isBlank).length, ?_, ?_, rfl, ?_⟩
  · have hrender := SyntaxTrace.render_of_line hshown
    rw [SyntaxTrace.caretOffset_eq hmore hloc hvisible] at hrender
    rw [hfails]
    exact congrArg Except.error hrender
  · -- A carriage return at the end of the line is a blank, so `Text.trim` does not see it.
    rw [Text.trim, Text.trim, hwhole.trimBoth_eq, String.toList_ofList]
  · rw [Text.trim, String.toList_ofList, hmore, Text.trimBoth_around hvisible]
    simp

/-- An operator `*` without an operand, on an indented line with another `*` and a letter of two
bytes before it, and a blank and a carriage return at its end. -/
theorem Program.caret_under_fault_operator :
    ofSource "if x:\r\n\t'é' * 3 +* 3 \r\n" = .error ⟨.unexpected (.symbol .star), ⟨2, 11⟩⟩ ∧
      (⟨2, 11⟩ : Location) = .past "if x:\r\n\t'é' * 3 +".toList ∧ Text.isBlank '*' = false ∧
      (ofSource "if x:\r\n\t'é' * 3 +* 3 \r\n").mapError
          (fun e => (e.trace "if x:\r\n\t'é' * 3 +* 3 \r\n").render) = .error
            ("  File \"<source>\", line " ++ toString 2 ++ "\n" ++
              "    " ++ "'é' * 3 +* 3" ++ "\n" ++
              "    " ++ String.ofList (List.replicate 9 ' ') ++ "^\n" ++
              "SyntaxError: " ++ "invalid syntax: unexpected '*'") ∧
      "'é' * 3 +* 3".toList[9]? = some '*' := by
  have hfails : ofSource "if x:\r\n\t'é' * 3 +* 3 \r\n" =
      .error ⟨.unexpected (.symbol .star), ⟨2, 11⟩⟩ := by
    rw [ofSource_of_lexemes (by cbv)]
    rfl
  have hloc : (⟨2, 11⟩ : Location) = .past "if x:\r\n\t'é' * 3 +".toList := by decide
  have hsplit : "if x:\r\n\t'é' * 3 +* 3 \r\n".toList =
      "if x:\r\n\t'é' * 3 +".toList ++ '*' :: " 3 \r\n".toList := by decide
  obtain ⟨shown, k, hrender, hshown, hk, hcaret⟩ :=
    caret_under_fault hfails hsplit hloc (by decide)
  obtain rfl : shown = "'é' * 3 +* 3" := hshown.trans (by decide)
  obtain rfl : k = 9 := hk.trans (by decide)
  exact ⟨hfails, hloc, by decide, hrender, hcaret⟩

end Stepper
