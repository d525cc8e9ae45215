import Stepper.Proofs.Message.RoundTrip
import Stepper.Proofs.Session.Run
import Stepper.Proofs.Text.Lines
import Stepper.Proofs.Token.Lexing

/-!
# The lines of a program arrive as they are sent

* `LineEnd`: how a line is ended on a channel.
* `Wire.splitLine_line`, `Wire.splitLine_last`: the bytes that are taken for a line.
* `Text.trim_withoutEnd`: a line is trimmed to the same text with its end and without.
* `Session.IsCode`: a line that can stand in a program.
* `Session.ReadsCode`: what is read from some bytes as lines of a program, and what is left.
  Programs are put together line by line with `Session.ReadsCode.cons`.
* `Session.collectCode_lossless`: the text of a program that is read is made of the lines that have
  been sent, and nothing after it is taken.
-/

namespace Stepper

/-- How a line is ended: by `\n`, or by `\r\n`. -/
inductive LineEnd where
  | feed
  | returnFeed
  deriving DecidableEq

/-- The characters of `e` that end a line. -/
def LineEnd.text : LineEnd → String
  | feed => "\n"
  | returnFeed => "\r\n"

variable {line front : String} {rest after : List UInt8} {cs : List Char}

/-! ## Bytes of lines -/

namespace Text

theorem bytes_append (s t : String) : bytes (s ++ t) = bytes s ++ bytes t := by
  simp [bytes_eq_flatMap]

theorem bytes_eq_nil_iff : bytes line = [] ↔ line = "" := by
  constructor
  · intro h
    have hread := fromUTF8?_bytes line
    rw [h] at hread
    exact (Option.some.inj hread).symm
  · rintro rfl
    rfl

end Text

namespace Wire

theorem bne_lineFeed_of_mem_bytes (h : '\n' ∉ line.toList) :
    ∀ b ∈ Text.bytes line, (b != lineFeed) = true := by
  intro b hb
  exact bne_iff_ne.2 fun hfeed => Text.lineFeed_not_mem_bytes h (hfeed ▸ hb)

/-- A line is taken with its `\n`, the first in the input. -/
theorem splitLine_line (h : '\n' ∉ front.toList) (rest : List UInt8) :
    splitLine (Text.bytes (front ++ "\n") ++ rest) = (Text.bytes (front ++ "\n"), rest) := by
  have hfeed : Text.bytes "\n" = [lineFeed] := rfl
  have hother := bne_lineFeed_of_mem_bytes h
  rw [Text.bytes_append, hfeed, List.append_assoc, splitLine,
    List.takeWhile_append_of_pos hother, List.dropWhile_append_of_pos hother]
  simp

/-- A `line` without `\n` takes all that is left. -/
theorem splitLine_last (h : '\n' ∉ line.toList) :
    splitLine (Text.bytes line) = (Text.bytes line, []) := by
  have hother := bne_lineFeed_of_mem_bytes h
  rw [splitLine, List.dropWhile_eq_nil_iff.2 hother, List.takeWhile_eq_self_iff.2 hother]

end Wire

/-! ## Line ends -/

/-- A line ended in either way ends in `\n`, and has no other one. -/
theorem LineEnd.exists_front (h : '\n' ∉ line.toList) (e : LineEnd) :
    ∃ front, line ++ e.text = front ++ "\n" ∧ '\n' ∉ front.toList := by
  cases e with
  | feed => exact ⟨line, rfl, h⟩
  | returnFeed => exact ⟨line ++ "\r", by rw [String.append_assoc]; rfl, by simpa using h⟩

/-- What `withoutEnd` takes away is the end `e`, not part of `line`. -/
theorem withoutEnd_line (h : line.toList.getLast? ≠ some '\r') (e : LineEnd) :
    withoutEnd (line ++ e.text).toList = line.toList := by
  cases e with
  | returnFeed => simp [LineEnd.text, withoutEnd]
  | feed =>
    rw [← List.head?_reverse] at h
    unfold withoutEnd
    rw [LineEnd.text, String.toList_append, show "\n".toList = ['\n'] from rfl, List.reverse_concat]
    split
    · next hreverse =>
      rw [List.cons.injEq] at hreverse
      exact absurd (congrArg List.head? hreverse.2) h
    · next hreverse => rw [← (List.cons.inj hreverse).2, List.reverse_reverse]
    · next hnone => exact absurd rfl (hnone _)

theorem withoutEnd_last (h : '\n' ∉ cs) : withoutEnd cs = cs := by
  have hreverse : '\n' ∉ cs.reverse := fun hmem => h (List.mem_reverse.1 hmem)
  unfold withoutEnd
  split
  · next heq => exact absurd (heq ▸ List.mem_cons_self) hreverse
  · next heq => exact absurd (heq ▸ List.mem_cons_self) hreverse
  · rfl

/-- Only blanks are taken away by `withoutEnd`. -/
theorem exists_withoutEnd_append (cs : List Char) :
    ∃ ending, cs = withoutEnd cs ++ ending ∧ ∀ c ∈ ending, Text.isBlank c = true := by
  have hcs := cs.reverse_reverse
  unfold withoutEnd
  split
  · next rest heq =>
    refine ⟨['\r', '\n'], ?_, forall_mem_of_all (by decide)⟩
    rw [← hcs, heq]
    simp
  · next rest _ heq =>
    refine ⟨['\n'], ?_, forall_mem_of_all (by decide)⟩
    rw [← hcs, heq]
    simp
  · exact ⟨[], (List.append_nil _).symm, by simp⟩

/-! ## Blanks -/

namespace Text

/-- A `line` is trimmed to the same text with its end and without. -/
theorem trim_withoutEnd (line : String) :
    trim (String.ofList (withoutEnd line.toList)) = trim line := by
  obtain ⟨ending, hline, hblank⟩ := exists_withoutEnd_append line.toList
  have htrim : trimBoth isBlank ([] ++ withoutEnd line.toList ++ ending) =
      trimBoth isBlank (withoutEnd line.toList) := trimBoth_padded nofun hblank
  rw [List.nil_append, ← hline] at htrim
  rw [trim, trim, htrim, String.toList_ofList]

end Text

namespace Session

/-! ## Reading lines -/

variable {s : Session} {w : Wire}

/-- The line that `readLine` reads is the text of the bytes that `splitLine` takes, `withoutEnd`. -/
theorem runOn_readLine_of_splitLine (hline : line ≠ "")
    (hw : Wire.splitLine w.unread = (Text.bytes line, rest)) :
    runOn (onChannel Wire.endpoint.readLine) s w =
      ((.ok (some (String.ofList (withoutEnd line.toList))), s), { w with unread := rest }) := by
  have hrun : runOn (onChannel Wire.endpoint.readLine) s w =
      ((textOfLine (Wire.splitLine w.unread).1, s),
        { w with unread := (Wire.splitLine w.unread).2 }) := rfl
  have hne : (Text.bytes line).isEmpty = false := by
    rw [List.isEmpty_eq_false_iff]
    exact fun h => hline (Text.bytes_eq_nil_iff.1 h)
  rw [hrun, hw, textOfLine, hne, if_neg Bool.false_ne_true, Text.fromUTF8?_bytes]

/-- From the bytes `unread` the `lines` of a program are read, for all `rounds` above the number of
bytes, and `after` is left. -/
def ReadsCode (s : Session) (w : Wire) (unread : List UInt8) (lines : List String)
    (after : List UInt8) : Prop :=
  ∀ rounds > unread.length, runOn (codeLines Wire.endpoint rounds) s { w with unread := unread } =
    ((.ok lines, s), { w with unread := after })

namespace ReadsCode

/-- At the end of the input a program ends: `lines` is empty. -/
theorem nil : ReadsCode s w [] [] [] := by
  intro rounds hrounds
  obtain ⟨rounds, rfl⟩ := Nat.exists_eq_add_one_of_ne_zero (Nat.ne_zero_of_lt hrounds)
  rfl

/-- A `line` that is trimmed to `endOfCode` ends a program, and `after` is what follows it. -/
theorem close {unread : List UInt8} (hclose : Text.trim line = endOfCode)
    (hsplit : Wire.splitLine unread = (Text.bytes line, after)) :
    ReadsCode s w unread [] after := by
  intro rounds hrounds
  obtain ⟨rounds, rfl⟩ := Nat.exists_eq_add_one_of_ne_zero (Nat.ne_zero_of_lt hrounds)
  have hne : line ≠ "" := by
    rintro rfl
    exact absurd hclose (by decide)
  have hread := runOn_readLine_of_splitLine (s := s) (w := { w with unread := unread }) hne hsplit
  rw [codeLines, runOn_bind, hread]
  dsimp only
  rw [if_pos ((Text.trim_withoutEnd line).trans hclose)]
  rfl

/-- One more `line`, read as `text`, in front of the `lines` read from `rest`. -/
theorem of_splitLine {unread : List UInt8} {text : String} {lines : List String}
    (h : ReadsCode s w rest lines after) (hne : line ≠ "")
    (htext : withoutEnd line.toList = text.toList) (hopen : Text.trim text ≠ endOfCode)
    (hunread : unread = Text.bytes line ++ rest)
    (hsplit : Wire.splitLine unread = (Text.bytes line, rest)) :
    ReadsCode s w unread ((text ++ "\n") :: lines) after := by
  intro rounds hrounds
  obtain ⟨rounds, rfl⟩ := Nat.exists_eq_add_one_of_ne_zero (Nat.ne_zero_of_lt hrounds)
  have hread := runOn_readLine_of_splitLine (s := s) (w := { w with unread := unread }) hne hsplit
  rw [htext, String.ofList_toList] at hread
  have hpos : 0 < (Text.bytes line).length :=
    List.length_pos_iff.2 fun h => hne (Text.bytes_eq_nil_iff.1 h)
  have hrest := h rounds (by rw [hunread, List.length_append] at hrounds; omega)
  rw [codeLines, runOn_bind, hread]
  dsimp only
  rw [if_neg hopen, runOn_bind, hrest]
  rfl

end ReadsCode

/-- A `line` of a program: it has no `\n`, no `\r` at its end, and is not `endOfCode` among
blanks. -/
structure IsCode (line : String) : Prop where
  oneLine : '\n' ∉ line.toList
  noReturn : line.toList.getLast? ≠ some '\r'
  notEnd : Text.trim line ≠ endOfCode

namespace ReadsCode

variable {lines : List String}

/-- The line `l` of a program is read as it is, whichever end `e` it has. -/
theorem cons {l : String} (hl : IsCode l) (e : LineEnd) (h : ReadsCode s w rest lines after) :
    ReadsCode s w (Text.bytes (l ++ e.text) ++ rest) ((l ++ "\n") :: lines) after := by
  obtain ⟨front, hfront, hfeed⟩ := e.exists_front hl.oneLine
  have hne : l ++ e.text ≠ "" := by
    rw [hfront]
    simp
  refine h.of_splitLine hne (withoutEnd_line hl.noReturn e) hl.notEnd rfl ?_
  rw [hfront]
  exact Wire.splitLine_line hfeed rest

/-- So is the last one, which need not be ended; after it nothing is left. -/
theorem last {l : String} (hl : IsCode l) (hne : l ≠ "") :
    ReadsCode s w (Text.bytes l) [l ++ "\n"] [] :=
  nil.of_splitLine hne (withoutEnd_last hl.oneLine) hl.notEnd (List.append_nil _).symm
    (Wire.splitLine_last hl.oneLine)

/-- The mark `endOfCode`, with blanks `before` and `behind` it, ends a program, with an end of its
own or at the end of the input. -/
theorem sentinel {before behind : String}
    (hbefore : ∀ c ∈ before.toList, Text.isBlank c = true ∧ c ≠ '\n')
    (hbehind : ∀ c ∈ behind.toList, Text.isBlank c = true ∧ c ≠ '\n') :
    (∀ (e : LineEnd) (after : List UInt8),
      ReadsCode s w (Text.bytes (before ++ endOfCode ++ behind ++ e.text) ++ after) [] after) ∧
    ReadsCode s w (Text.bytes (before ++ endOfCode ++ behind)) [] [] := by
  have hmark : ∀ c ∈ endOfCode.toList, c ≠ '\n' := forall_mem_of_all (by decide)
  have hfeed : '\n' ∉ (before ++ endOfCode ++ behind).toList := by
    simp only [String.toList_append, List.mem_append, not_or]
    exact ⟨⟨fun h => (hbefore _ h).2 rfl, fun h => hmark _ h rfl⟩, fun h => (hbehind _ h).2 rfl⟩
  have hblank (e : LineEnd) : ∀ c ∈ e.text.toList, Text.isBlank c = true := by
    cases e <;> exact forall_mem_of_all (by decide)
  have htrim : Text.trim (before ++ endOfCode ++ behind) = endOfCode :=
    (Text.trim_padded (fun c hc => (hbefore c hc).1) fun c hc => (hbehind c hc).1).trans (by decide)
  refine ⟨fun e after => ?_, close htrim (Wire.splitLine_last hfeed)⟩
  obtain ⟨front, hfront, hfeed'⟩ := e.exists_front hfeed
  have hended : Text.trim ("" ++ (before ++ endOfCode ++ behind) ++ e.text) =
      Text.trim (before ++ endOfCode ++ behind) := Text.trim_padded (by simp) (hblank e)
  rw [String.empty_append] at hended
  refine close (hended.trans htrim) ?_
  rw [hfront]
  exact Wire.splitLine_line hfeed' after

/-- The lines `sent` of a program, in front of more of it in `rest`. -/
theorem append {sent : List (String × LineEnd)} (hsent : ∀ l ∈ sent, IsCode l.1)
    (h : ReadsCode s w rest lines after) :
    ReadsCode s w (sent.flatMap (fun l => Text.bytes (l.1 ++ l.2.text)) ++ rest)
      (sent.map (fun l => l.1 ++ "\n") ++ lines) after := by
  induction sent with
  | nil => exact h
  | cons l sent ih =>
    rw [List.forall_mem_cons] at hsent
    rw [List.flatMap_cons, List.append_assoc]
    exact (ih hsent.2).cons hsent.1 l.2

end ReadsCode

/-! ## Programs -/

/-- From the bytes `unread`, `source` is read as a program, and `after` is left. The phase is then
`running`. -/
def Collects (s : Session) (w : Wire) (unread : List UInt8) (source : String)
    (after : List UInt8) : Prop :=
  runOn (collectCode Wire.endpoint) s { w with unread := unread } =
    ((.ok source, { s with phase := .running }), { w with unread := after })

theorem ReadsCode.collects {unread : List UInt8} {lines : List String}
    (h : ReadsCode s w unread lines after) : Collects s w unread (String.join lines) after := by
  have hleft : runOn (liftM Wire.endpoint.linesLeft) s { w with unread := unread } =
      ((.ok unread.length, s), { w with unread := unread }) := rfl
  unfold Collects collectCode
  rw [runOn_bind, hleft]
  dsimp only
  rw [runOn_bind, h _ (Nat.lt_succ_self _)]
  rfl

/-- The lines `sent` arrive as they are, each ended in one of both ways. They are taken up to a line
that is `endOfCode` but for blanks around it, and the bytes `after` that line are left, whatever
they are; or up to the end of the input, where the last line need not be ended. -/
theorem collectCode_lossless {sent : List (String × LineEnd)} (hsent : ∀ l ∈ sent, IsCode l.1)
    (s : Session) (w : Wire) :
    let input := sent.flatMap fun l => Text.bytes (l.1 ++ l.2.text)
    let source := String.join (sent.map fun l => l.1 ++ "\n")
    (∀ before behind : String,
      (∀ c ∈ before.toList, Text.isBlank c = true ∧ c ≠ '\n') →
      (∀ c ∈ behind.toList, Text.isBlank c = true ∧ c ≠ '\n') →
        (∀ (e : LineEnd) (after : List UInt8),
          Collects s w (input ++ (Text.bytes (before ++ endOfCode ++ behind ++ e.text) ++ after))
            source after) ∧
        Collects s w (input ++ Text.bytes (before ++ endOfCode ++ behind)) source []) ∧
    Collects s w input source [] ∧
    ∀ last, IsCode last → last ≠ "" →
      Collects s w (input ++ Text.bytes last) (source ++ last ++ "\n") [] := by
  intro input source
  -- All three ways to end a program leave it to `ReadsCode.append` to read the lines before.
  have hcollects {rest after : List UInt8} (h : ReadsCode s w rest [] after) :
      Collects s w (input ++ rest) source after := by
    have hread := (ReadsCode.append hsent h).collects
    rwa [List.append_nil] at hread
  refine ⟨fun before behind hbefore hbehind => ?_, ?_, fun last hlast hne => ?_⟩
  · obtain ⟨hended, hopen⟩ := ReadsCode.sentinel (s := s) (w := w) hbefore hbehind
    exact ⟨fun e after => hcollects (hended e after), hcollects hopen⟩
  · have hend := hcollects ReadsCode.nil
    rwa [List.append_nil] at hend
  · have hread := (ReadsCode.append hsent (ReadsCode.last (s := s) (w := w) hlast hne)).collects
    rw [String.join_append] at hread
    simpa [source, String.append_assoc] using hread

/-- Three lines, one of them empty, with ends of both kinds: before a mark that is ended by `\r\n`
and followed by the byte `255`, with which no text begins, and before a last line without end. -/
theorem collectCode_lossless_mixed :
    let sent : List (String × LineEnd) := [("é = 1", .returnFeed), ("", .feed), ("\t# ===", .feed)]
    let mark : List UInt8 := Text.bytes "é = 1\r\n\n\t# ===\n \t===END_OF_CODE===\r\n"
    (∀ l ∈ sent, IsCode l.1) ∧ IsCode "z" ∧
      Collects (new .default) (.ofInput [] none) (mark ++ [0xFF, 10]) "é = 1\n\n\t# ===\n"
        [0xFF, 10] ∧
      Collects (new .default) (.ofInput [] none) (Text.bytes "é = 1\r\n\n\t# ===\nz")
        "é = 1\n\n\t# ===\nz\n" [] := by
  intro sent mark
  have hsent : ∀ l ∈ sent, IsCode l.1 := by
    simp only [sent, List.forall_mem_cons]
    exact ⟨⟨by decide, by decide, by decide⟩, ⟨by decide, by decide, by decide⟩,
      ⟨by decide, by decide, by decide⟩, List.forall_mem_nil _⟩
  have hlast : IsCode "z" := ⟨by decide, by decide, by decide⟩
  obtain ⟨hmark, -, hopen⟩ := collectCode_lossless hsent (new .default) (.ofInput [] none)
  have hended := (hmark " \t" "\r" (forall_mem_of_all (by decide))
    (forall_mem_of_all (by decide))).1 .feed [0xFF, 10]
  exact ⟨hsent, hlast, hended, hopen "z" hlast (by decide)⟩

end Session

end Stepper
