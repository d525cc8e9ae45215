import Mathlib.Data.List.DropRight
import Stepper.Proofs.Execution.InStep

/-!
# What is left in the window of an output

* `lastChars`: the last characters of a text.
* `Output.Keeps`: an output that has been trimmed to `n` characters now and then, beside the same
  output untrimmed: both windows end in the same `n` characters.
* `Program.run_inStep_keeps`: printing keeps this, so it holds at every pause of a program.
-/

namespace Stepper

/-- The last `n` characters of `text`, or all of them if there are fewer. -/
def lastChars (n : Nat) (text : String) : String :=
  String.ofList (text.toList.drop (text.length - n))

theorem length_lastChars (n : Nat) (text : String) :
    (lastChars n text).length = min n text.length := by
  rw [lastChars, String.length_ofList, List.length_drop, String.length_toList]
  omega

theorem lastChars_eq_rtake (n : Nat) (text : String) :
    lastChars n text = String.ofList (text.toList.rtake n) := by
  rw [lastChars, List.rtake, String.length_toList]

/-- The last `n` items of a list depend on the last `n` items of its parts only. -/
theorem rtake_append_congr {n : Nat} {a b : List α} (h : a.rtake n = b.rtake n) (c : List α) :
    (a ++ c).rtake n = (b ++ c).rtake n := by
  simp only [List.rtake_eq_reverse_take_reverse, List.reverse_append, List.take_append,
    List.reverse_inj] at h ⊢
  have hle : n - c.reverse.length ≤ n := Nat.sub_le _ _
  rw [← Nat.min_eq_left hle, ← List.take_take, ← List.take_take, h]

theorem lastChars_append_congr {n : Nat} {a b : String} (h : lastChars n a = lastChars n b)
    (text : String) : lastChars n (a ++ text) = lastChars n (b ++ text) := by
  rw [lastChars_eq_rtake, lastChars_eq_rtake, String.ofList_inj] at h ⊢
  rw [String.toList_append, String.toList_append, rtake_append_congr h]

theorem lastChars_lastChars {n keep : Nat} (h : n ≤ keep) (text : String) :
    lastChars n (lastChars keep text) = lastChars n text := by
  simp only [lastChars_eq_rtake, String.toList_ofList, List.rtake_eq_reverse_take_reverse,
    List.reverse_reverse, List.take_take, Nat.min_eq_left h]

theorem Output.trim_window (o : Output) (n : Nat) : (o.trim n).window = lastChars n o.window := by
  unfold Output.trim Output.excess
  split
  · next h => rw [lastChars, h, List.drop_zero, String.ofList_toList]
  · rfl

/-- The output `o` has been trimmed to `n` characters now and then, and `o'` is the same one that
has not been trimmed at all. -/
structure Output.Keeps (n : Nat) (o o' : Output) : Prop where
  window : lastChars n o.window = lastChars n o.transcript
  transcript : o.transcript = o'.transcript
  whole : o'.window = o'.transcript

namespace Output.Keeps

variable {n : Nat} {o o' : Output}

theorem write (h : Keeps n o o') (text : String) : Keeps n (o.write text) (o'.write text) where
  window := lastChars_append_congr h.window text
  transcript := congrArg (· ++ text) h.transcript
  whole := congrArg (· ++ text) h.whole

theorem trim (h : Keeps n o o') : Keeps n (o.trim n) o' where
  window := by rw [trim_window, lastChars_lastChars le_rfl, trim_transcript, h.window]
  transcript := (o.trim_transcript n).trans h.transcript
  whole := h.whole

/-- What is shown after a trim to `n` are the last `n` characters of everything printed. -/
theorem trim_window (h : Keeps n o o') : (o.trim n).window = lastChars n o'.transcript := by
  rw [Output.trim_window, h.window, h.transcript]

end Output.Keeps

/-- A program whose output is trimmed to `n` goes in step with itself untrimmed. -/
theorem Program.run_inStep_keeps (p : Program) (n limit : Nat) :
    (p.run limit).InStep (Output.Keeps n) (SameResult (Output.Keeps n)) (p.run limit) :=
  p.run_inStep (fun _ _ text h => h.write text) ⟨rfl, rfl, rfl⟩ limit

end Stepper
