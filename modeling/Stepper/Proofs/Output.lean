import Stepper.Proofs.Execution.Window

/-!
# The history of an output

A program writes to its output, and an observer trims the window of it, in any order and to any
lengths.

* `Output.Change`, `Output.history`: writes and trims, and a new output after some of them, with the
  number of characters that the trims have dropped.
* `Output.Follows`, `Output.Ends`: what is kept by each change: that the window follows what has
  been dropped, and that it ends as the transcript does.
* `Output.cut`, `Output.cut_isValid`: the byte at which a trim cuts the window. A character starts
  there, or the window ends.
* `Output.window_of_history`: what is in the window after any history.
-/

namespace Stepper

namespace Output

/-! ## Histories -/

/-- A change of an output. -/
inductive Change where
  | write (text : String)
  | trim (keep : Nat)
  deriving DecidableEq

/-- The text that a change writes; a `trim` writes none. -/
def Change.text : Change → String
  | write text => text
  | trim _ => ""

/-- An output `o` after a change, and how many characters have been `dropped` until then. -/
def perform : Output × Nat → Change → Output × Nat
  | (o, dropped), .write text => (o.write text, dropped)
  | (o, dropped), .trim keep => (o.trim keep, dropped + o.excess keep)

/-- A new output after `changes`, and how many characters the trims among them have dropped. -/
def history (changes : List Change) : Output × Nat :=
  changes.foldl perform (empty, 0)

variable {o : Output} {dropped keep n : Nat} {changes : List Change}

theorem history_concat (changes : List Change) (c : Change) :
    history (changes ++ [c]) = perform (history changes) c :=
  List.foldl_concat ..

/-- A trim of `o` cuts the characters that are more than `keep`, and no others. -/
theorem exists_append_trim (o : Output) (keep : Nat) :
    ∃ gone, o.window = gone ++ (o.trim keep).window ∧ gone.length = o.excess keep := by
  refine ⟨String.ofList (o.window.toList.take (o.excess keep)), ?_, ?_⟩
  · rw [trim_window, lastChars, ← String.ofList_append]
    change o.window = String.ofList (_ ++ List.drop (o.excess keep) _)
    rw [List.take_append_drop, String.ofList_toList]
  · rw [String.length_ofList, List.length_take, String.length_toList]
    exact Nat.min_eq_left (Nat.sub_le ..)

/-- The window of `o` follows the characters of the transcript that have been `dropped`. -/
def Follows (o : Output) (dropped : Nat) : Prop :=
  ∃ gone, o.transcript = gone ++ o.window ∧ gone.length = dropped

theorem Follows.write (h : o.Follows dropped) (text : String) : (o.write text).Follows dropped := by
  obtain ⟨gone, hgone, hlength⟩ := h
  refine ⟨gone, ?_, hlength⟩
  rw [Output.write, hgone, String.append_assoc]

theorem Follows.trim (h : o.Follows dropped) (keep : Nat) :
    (o.trim keep).Follows (dropped + o.excess keep) := by
  obtain ⟨gone, hgone, rfl⟩ := h
  obtain ⟨more, hmore, hlength⟩ := o.exists_append_trim keep
  refine ⟨gone ++ more, ?_, by rw [String.length_append, hlength]⟩
  rw [trim_transcript, hgone, String.append_assoc, ← hmore]

theorem follows_history (changes : List Change) :
    (history changes).1.Follows (history changes).2 := by
  induction changes using List.reverseRecOn with
  | nil => exact ⟨"", rfl, rfl⟩
  | append_singleton changes c ih =>
    rw [history_concat]
    cases c with
    | write text => exact ih.write text
    | trim keep => exact ih.trim keep

theorem transcript_history (changes : List Change) :
    (history changes).1.transcript = String.join (changes.map Change.text) := by
  induction changes using List.reverseRecOn with
  | nil => rfl
  | append_singleton changes c ih =>
    rw [history_concat, List.map_append, String.join_append, ← ih]
    cases c with
    | write text => simp [perform, Output.write, Change.text]
    | trim keep => simp [perform, Change.text]

/-- The window and the transcript of `o` end in the same `n` characters. -/
def Ends (n : Nat) (o : Output) : Prop :=
  lastChars n o.window = lastChars n o.transcript

theorem Ends.write (h : o.Ends n) (text : String) : (o.write text).Ends n :=
  lastChars_append_congr h text

theorem Ends.trim (h : o.Ends n) (hkeep : n ≤ keep) : (o.trim keep).Ends n := by
  rw [Ends, trim_window, lastChars_lastChars hkeep, trim_transcript]
  exact h

/-- What is kept by every trim in `changes`, `n` characters at least, is still in the window. -/
theorem ends_history (h : ∀ keep, .trim keep ∈ changes → n ≤ keep) :
    (history changes).1.Ends n := by
  induction changes using List.reverseRecOn with
  | nil => rfl
  | append_singleton changes c ih =>
    have hchanges := ih fun keep hkeep => h keep (List.mem_append_left _ hkeep)
    rw [history_concat]
    cases c with
    | write text => exact hchanges.write text
    | trim keep => exact hchanges.trim (h keep List.mem_concat_self)

/-! ## Cutting bytes -/

/-- The bytes at which characters start, if the first of them starts at `start`. -/
def startsFrom (start : Nat) : List Char → List Nat
  | [] => []
  | c :: cs => start :: startsFrom (start + c.utf8Size) cs

/-- The byte at which a trim to `keep` cuts the window of `o`: the start of the first character that
is kept, or the end of the window if there is none. -/
def cut (o : Output) (keep : Nat) : String.Pos.Raw :=
  ⟨(startsFrom 0 o.window.toList)[o.excess keep]?.getD o.window.utf8ByteSize⟩

theorem startsFrom_append (start : Nat) (cs ds : List Char) :
    (startsFrom start (cs ++ ds))[cs.length]?.getD
        (start + (String.ofList (cs ++ ds)).utf8ByteSize) =
      start + (String.ofList cs).utf8ByteSize := by
  induction cs generalizing start with
  | nil => cases ds <;> simp [startsFrom]
  | cons c cs ih =>
    have hsize (cs : List Char) : start + (String.ofList (c :: cs)).utf8ByteSize =
        start + c.utf8Size + (String.ofList cs).utf8ByteSize := by
      rw [String.ofList_cons, String.utf8ByteSize_append, String.utf8ByteSize_singleton,
        Nat.add_assoc]
    rw [List.cons_append, startsFrom, List.length_cons, List.getElem?_cons_succ, hsize, hsize]
    exact ih (start + c.utf8Size)

/-- The characters that a trim drops, `gone`, are those in front of its cut. -/
theorem cut_eq {gone : String} (hwindow : o.window = gone ++ (o.trim keep).window)
    (hlength : gone.length = o.excess keep) : o.cut keep = gone.rawEndPos := by
  have hstart := startsFrom_append 0 gone.toList (o.trim keep).window.toList
  rw [← String.toList_append, ← hwindow, String.length_toList, hlength, String.ofList_toList,
    String.ofList_toList, Nat.zero_add, Nat.zero_add] at hstart
  rw [cut, hstart, String.rawEndPos]

/-- A trim does not cut a character, and the bytes after `o.cut keep` are what it leaves. -/
theorem cut_isValid (o : Output) (keep : Nat) :
    (o.cut keep).IsValid o.window ∧
      (o.trim keep).window.toUTF8 =
        o.window.toUTF8.extract (o.cut keep).byteIdx o.window.utf8ByteSize := by
  obtain ⟨gone, hwindow, hlength⟩ := o.exists_append_trim keep
  rw [cut_eq hwindow hlength]
  refine ⟨String.Pos.Raw.isValid_iff_exists_append.2 ⟨gone, _, hwindow, rfl⟩, ?_⟩
  generalize (o.trim keep).window = left at hwindow
  rw [hwindow, String.utf8ByteSize_append]
  change left.toByteArray = (gone ++ left).toByteArray.extract gone.utf8ByteSize _
  rw [String.toByteArray_append]
  exact (ByteArray.extract_append_eq_right rfl rfl).symm

/-! ## The window -/

/-- After any `changes`, in any order and to any lengths: the transcript is all that has been
written, the window is a suffix of it, and what has been dropped is what is missing. A trim to `n`
characters leaves no more than these; it leaves the last `n` characters of the transcript if no trim
before has kept fewer; and it cuts the window between two characters (`String.Pos.Raw.IsValid`). -/
theorem window_of_history (changes : List Change) :
    (history changes).1.transcript = String.join (changes.map Change.text) ∧
    (∃ gone, (history changes).1.transcript = gone ++ (history changes).1.window) ∧
    (history changes).2 + (history changes).1.window.length =
      (history changes).1.transcript.length ∧
    ∀ n,
      (history (changes ++ [.trim n])).1.window.length ≤ n ∧
      ((∀ keep, .trim keep ∈ changes → n ≤ keep) →
        (history (changes ++ [.trim n])).1.window = lastChars n (history changes).1.transcript) ∧
      ((history changes).1.cut n).IsValid (history changes).1.window ∧
      (history (changes ++ [.trim n])).1.window.toUTF8 =
        (history changes).1.window.toUTF8.extract ((history changes).1.cut n).byteIdx
          (history changes).1.window.utf8ByteSize := by
  obtain ⟨gone, hgone, hlength⟩ := follows_history changes
  refine ⟨transcript_history changes, ⟨gone, hgone⟩, ?_, fun n => ?_⟩
  · rw [hgone, String.length_append, hlength]
  have htrim : (history (changes ++ [.trim n])).1 = (history changes).1.trim n := by
    rw [history_concat]
    rfl
  rw [htrim]
  refine ⟨?_, fun hkeep => ?_, cut_isValid _ n⟩
  · rw [trim_window, length_lastChars]
    exact Nat.min_le_left ..
  · rw [trim_window]
    exact ends_history hkeep

/-- A window that has been trimmed to nine characters, has grown and is trimmed to five: of `é` and
`ö`, which take two bytes each, one has been dropped before. -/
theorem window_of_history_accents :
    let changes : List Change := [.write "héllo ", .write "wörld", .trim 9, .write "!"]
    (∀ keep, .trim keep ∈ changes → 5 ≤ keep) ∧ (history changes).1.window = "llo wörld!" ∧
      (history (changes ++ [.trim 5])).1.window = "örld!" ∧ (history changes).2 = 2 := by
  intro changes
  have hkeep : ∀ keep, .trim keep ∈ changes → 5 ≤ keep := by
    simp [changes]
  obtain ⟨-, -, hcount, hn⟩ := window_of_history changes
  have hlast := (hn 5).2.1 hkeep
  exact ⟨hkeep, by decide +kernel, hlast.trans (by decide +kernel), by decide +kernel⟩

end Output

end Stepper
