import Mathlib.Data.List.Pairwise
import Stepper.Proofs.Token.Lexed

/-!
# The distance of tab stops

How far a tab reaches does not matter to the indentations of a text, as a margin is accepted only if
it tells the same with tabs of one column.

* `Indent.narrow`: a margin in which a tab counts as one column.
* `Indent.Nested`: the open indentations are wider than those around them, in both measures. So both
  measures order them in the same way (`Indent.Nested.width_lt_iff`).
* `Indent.enter_ok_iff`: the margins that are accepted, and what they open and close.
* `Indent.enter_narrow`: with tabs of one column a margin that is accepted opens and closes the same
  indentations, and they stay nested.
* `Lexed.narrow`: this goes on through a text.
* `lexemes_narrowTabs`: a text that has lexemes has the same ones with tabs of one column.
-/

namespace Stepper

/-- Tests `p` and `q` that agree on the members of `as` split it in the same place. -/
theorem splitWhile_congr {p q : α → Bool} {as : List α} (h : ∀ a ∈ as, p a = q a) :
    as.takeWhile p = as.takeWhile q ∧ as.dropWhile p = as.dropWhile q := by
  induction as with
  | nil => exact ⟨rfl, rfl⟩
  | cons a as ih =>
    rw [List.forall_mem_cons] at h
    obtain ⟨htake, hdrop⟩ := ih h.2
    simp only [List.takeWhile_cons, List.dropWhile_cons, h.1, htake, hdrop, and_self]

namespace Indent

/-- The margin `indent` with a tab of one column. -/
def narrow (indent : Indent) : Indent := ⟨indent.narrowWidth, indent.narrowWidth⟩

/-- Each of the open indentations in `levels` is wider than those around it, in both measures, and
the outermost is wider than none at all. -/
def Nested (levels : List Indent) : Prop :=
  (levels ++ [none]).Pairwise fun inner outer =>
    outer.width < inner.width ∧ outer.narrowWidth < inner.narrowWidth

/-- Both measures compare the margins `a` and `b` in the same way. -/
def Alike (a b : Indent) : Prop :=
  (a.width < b.width ↔ a.narrowWidth < b.narrowWidth) ∧
    (b.width < a.width ↔ b.narrowWidth < a.narrowWidth)

variable {levels levels' : List Indent} {indent inner outer : Indent} {tokens : List Token}

theorem headD_mem (levels : List Indent) : levels.headD none ∈ levels ++ [none] := by
  cases levels <;> simp

theorem headD_narrow (levels : List Indent) :
    (levels.map narrow).headD none = (levels.headD none).narrow := by
  cases levels <;> rfl

/-- Both measures order the open indentations of `levels` in the same way. -/
theorem Nested.width_lt_iff (h : Nested levels) (hinner : inner ∈ levels ++ [none])
    (houter : outer ∈ levels ++ [none]) :
    outer.width < inner.width ↔ outer.narrowWidth < inner.narrowWidth := by
  have hsymm : Std.Symm Alike := ⟨fun _ _ hab => hab.symm⟩
  have hself : ∀ level ∈ levels ++ [none], Alike level level := by simp [Alike]
  have halike : (levels ++ [none]).Pairwise Alike := h.imp fun hdeeper =>
    ⟨iff_of_false (Nat.lt_asymm hdeeper.1) (Nat.lt_asymm hdeeper.2),
      iff_of_true hdeeper.1 hdeeper.2⟩
  exact (halike.forall_of_forall hself hinner houter).2

/-- An indentation that is wider than the innermost one of `levels` can be opened in it. -/
theorem Nested.cons (h : Nested levels) (hwidth : (levels.headD none).width < indent.width)
    (hnarrow : (levels.headD none).narrowWidth < indent.narrowWidth) :
    Nested (indent :: levels) := by
  refine List.pairwise_cons.2 ⟨fun outer houter => ?_, h⟩
  cases levels with
  | nil =>
    obtain rfl := List.mem_singleton.1 houter
    exact ⟨hwidth, hnarrow⟩
  | cons current levels =>
    obtain rfl | hmem := List.mem_cons.1 houter
    · exact ⟨hwidth, hnarrow⟩
    · obtain ⟨houterWidth, houterNarrow⟩ := (List.pairwise_cons.1 h).1 outer hmem
      exact ⟨Nat.lt_trans houterWidth hwidth, Nat.lt_trans houterNarrow hnarrow⟩

theorem Nested.dropWhile (h : Nested levels) (p : Indent → Bool) : Nested (levels.dropWhile p) :=
  h.sublist ((List.dropWhile_sublist p).append_right [none])

/-- The margin `indent` is accepted if it is wider than the innermost of `levels`, and opens one, or
if it is that of an open indentation, and closes those within. -/
theorem enter_ok_iff : enter levels indent = .ok (tokens, levels') ↔
    ((levels.headD none).width < indent.width ∧
      (levels.headD none).narrowWidth < indent.narrowWidth ∧
      tokens = [.indent] ∧ levels' = indent :: levels) ∨
    (¬ (levels.headD none).width < indent.width ∧
      indent.width = (levels'.headD none).width ∧
      indent.narrowWidth = (levels'.headD none).narrowWidth ∧
      tokens = (levels.takeWhile (indent.width < ·.width)).map (fun _ => .dedent) ∧
      levels' = levels.dropWhile (indent.width < ·.width)) := by
  rw [enter]
  grind

/-- With tabs of one column a margin that is accepted opens and closes the same indentations, and
they stay `Nested`. -/
theorem enter_narrow (h : Nested levels) (hentered : enter levels indent = .ok (tokens, levels')) :
    Nested levels' ∧
      enter (levels.map narrow) indent.narrow = .ok (tokens, levels'.map narrow) := by
  rw [enter_ok_iff, headD_narrow, headD_narrow]
  obtain ⟨hwidth, hnarrow, rfl, rfl⟩ | ⟨hcurrent, hwidth, hnarrow, rfl, hlevels⟩ :=
    enter_ok_iff.1 hentered
  · exact ⟨h.cons hwidth hnarrow, .inl ⟨hnarrow, hnarrow, rfl, rfl⟩⟩
  · -- the margin is that of an indentation, which compares alike with the others in both measures
    have hmargin : levels'.headD none ∈ levels ++ [none] := by
      rw [hlevels]
      exact ((List.dropWhile_sublist _).append_right [none]).mem (headD_mem _)
    have hsame (level : Indent) (hlevel : level ∈ levels ++ [none]) :
        indent.width < level.width ↔ indent.narrowWidth < level.narrowWidth := by
      rw [hwidth, hnarrow]
      exact h.width_lt_iff hlevel hmargin
    have hsplit := splitWhile_congr (p := fun level : Indent => indent.width < level.width)
      (q := fun level : Indent => indent.narrowWidth < level.narrowWidth)
      fun level (hlevel : level ∈ levels) =>
        decide_eq_decide.2 (hsame level (List.mem_append_left _ hlevel))
    have hcurrent' : ¬ (levels.headD none).narrowWidth < indent.narrowWidth := by
      rw [hnarrow, ← h.width_lt_iff hmargin (headD_mem levels), ← hwidth]
      exact hcurrent
    refine ⟨hlevels ▸ h.dropWhile _, .inr ⟨hcurrent', hnarrow, hnarrow, ?_, ?_⟩⟩
    · rw [hsplit.1, List.takeWhile_map, List.map_map]
      rfl
    · rw [hlevels, hsplit.2, List.dropWhile_map]
      rfl

/-- With tabs of one column a line has the same blanks in front. -/
theorem scan_narrow (tabStop : Nat) (indent : Indent) (cs : List Char) :
    scan 1 indent.narrow cs = (scan tabStop indent cs).map narrow := by
  have hnext (indent : Indent) (c : Char) :
      indent.narrow.next 1 c = (indent.next tabStop c).narrow := by
    unfold next
    split
    · simp [narrow]
    · split <;> rfl
  fun_induction scan tabStop indent cs with
  | case1 => rfl
  | case2 indent c rest hblank ih =>
    rw [scan, if_pos hblank, hnext, ih]
    rfl
  | case3 indent c rest hvisible =>
    rw [scan, if_neg hvisible]
    rfl

end Indent

/-- The state `st` with the open indentations measured with tabs of one column. -/
def LexState.narrow (st : LexState) : LexState :=
  { st with levels := st.levels.map Indent.narrow }

theorem LexState.finish_narrow (st : LexState) : st.narrow.finish = st.finish := by
  simp only [LexState.finish, LexState.narrow, List.map_map]
  rfl

variable {tabStop : Nat} {fresh : Bool} {st : LexState} {cs : List Char} {ls : List Lexeme}

/-- With tabs of one column the text `cs` comes to the same lexemes. The induction is along the
rules of `Lexed`; that `levels` are nested is what margins keep. -/
theorem Lexed.narrow (h : Lexed tabStop fresh st cs ls) (hnested : Indent.Nested st.levels) :
    Lexed 1 fresh st.narrow cs ls := by
  have hmargin {cs blanks rest : List Char} {indent : Indent}
      (margin : Indent.scan tabStop .none cs = ⟨indent, blanks, rest⟩) :
      Indent.scan 1 .none cs = ⟨indent.narrow, blanks, rest⟩ :=
    (Indent.scan_narrow tabStop .none cs).trans (congrArg (Scanned.map Indent.narrow) margin)
  induction h with
  | @bareEnd st _ blanks _ margin =>
    rw [← (st.skip blanks).finish_narrow]
    exact .bareEnd (hmargin margin)
  | bareLine margin bare more ih => exact .bareLine (hmargin margin) bare (ih hnested)
  | margin margin bare entered more ih =>
    obtain ⟨hlevels, hentered⟩ := Indent.enter_narrow hnested entered
    exact .margin (hmargin margin) bare hentered (ih hlevels)
  | @finished st _ blanks gap =>
    rw [← (st.skip blanks).finish_narrow]
    exact .finished gap
  | lineEnd gap outside more ih => exact .lineEnd gap outside (ih hnested)
  | joined gap inside more ih => exact .joined gap inside (ih hnested)
  | token gap visible scanned more ih => exact .token gap visible scanned (ih hnested)

/-- A `source` that has lexemes has the same ones, with the same indentations, if a tab counts as
one column instead of reaching to the next tab stop. -/
theorem lexemes_narrowTabs {source : List Char} (h : lexemes source = .ok ls) :
    lexemesWith 1 source = .ok ls :=
  ((lexed_of_ok h).narrow (List.pairwise_singleton _ _)).ok

/-- A block within a block, with a tab after a blank, blanks after a tab, and a form feed. -/
theorem lexemes_narrowTabs_mixed :
    ∃ ls, lexemes "if a:\n \tb\n\x0c \tif c:\n \t  \td\n \te\nf\n".toList = .ok ls ∧
      ls.map (·.token) =
        [.keyword .ifWord, .name "a", .symbol .colon, .newline, .indent, .name "b", .newline,
          .keyword .ifWord, .name "c", .symbol .colon, .newline, .indent, .name "d", .newline,
          .dedent, .name "e", .newline, .dedent, .name "f", .newline, .endOfFile] ∧
      lexemesWith 1 "if a:\n \tb\n\x0c \tif c:\n \t  \td\n \te\nf\n".toList = .ok ls := by
  have htokens : (lexemes "if a:\n \tb\n\x0c \tif c:\n \t  \td\n \te\nf\n".toList).map
      (·.map (·.token)) =
      .ok [.keyword .ifWord, .name "a", .symbol .colon, .newline, .indent, .name "b", .newline,
        .keyword .ifWord, .name "c", .symbol .colon, .newline, .indent, .name "d", .newline,
        .dedent, .name "e", .newline, .dedent, .name "f", .newline, .endOfFile] := by cbv
  obtain ⟨ls, hlex, hls⟩ := ok_of_map_eq_ok htokens
  exact ⟨ls, hlex, hls, lexemes_narrowTabs hlex⟩

end Stepper
