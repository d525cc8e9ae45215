import Stepper.Method.Call
import Stepper.Proofs.Operation.Results
import Stepper.Proofs.Text.Pieces

/-!
# Splitting and joining texts

* `Operation.textItems_map`, `Operation.splitText_str`: these depend on no store.
* `Method.call_split`, `Method.call_join`: `split` makes a new list of its pieces, and `join` reads
  the texts of a list.
* `Method.join_split`: `join` undoes `split`, which cuts a text at the occurrences of the separator,
  or into its words.
-/

namespace Stepper

variable {s : Store} {place : Nat} {texts : List String}

namespace Operation

/-- A new list has its `items` at its `place`. -/
theorem newList_run (items : Array Value) (s : Store) :
    ∃ place s', newList items s = .ok (.list place, s') ∧ s'.list place = items :=
  ⟨s.lists.size, _, rfl, by simp [Store.list]⟩

theorem textItems_map (index : Nat) (texts : List String) :
    textItems index (texts.map .str) = pure texts := by
  induction texts generalizing index with
  | nil => rfl
  | cons t texts ih => rw [List.map_cons, textItems, ih, pure_bind]

theorem splitText_str {separator : String} (hseparator : separator ≠ "") (t : String) :
    splitText t (some (.str separator)) = pure (Text.piecesAt separator t) := by
  have hsplit : splitText t (some (.str separator)) =
      if separator.isEmpty then fail .emptySeparator else pure (Text.piecesAt separator t) := rfl
  rw [hsplit, if_neg (mt String.isEmpty_iff.1 hseparator)]

/-- The text `part` is not in `whole` if it stands nowhere in it (`<:+:`). -/
theorem member_of_not_isInfix {part whole : String} (h : ¬ part.toList <:+: whole.toList) :
    member (.str part) (.str whole) = pure false := by
  have hmember : member (.str part) (.str whole) = pure (Text.hasInside whole part) := rfl
  rw [hmember, Text.hasInside, Bool.eq_false_iff.2 (mt Text.occursIn_iff.1 h)]

end Operation

open Operation

namespace Method

/-- `split` makes a new list of the pieces. -/
theorem call_split (s : Store) (t : String) (args : List Value) {separator : Option Value}
    (hargs : givenArgument split.name args = pure separator)
    (hsplit : splitText t separator = pure texts) :
    ∃ place s', call (.str t) .split args [] s = .ok (.list place, s') ∧
      (s'.list place).toList = texts.map .str := by
  have hcall : call (.str t) .split args [] = (do
      let pieces ← splitText t (← givenArgument split.name args)
      newList (pieces.map Value.str).toArray) := rfl
  obtain ⟨place, s', hrun, hlist⟩ := newList_run (texts.map Value.str).toArray s
  refine ⟨place, s', ?_, by rw [hlist]⟩
  rw [hcall, hargs, pure_bind, hsplit, pure_bind, hrun]

/-- `join` puts its text between the texts of a list. -/
theorem call_join (t : String) (hlist : (s.list place).toList = texts.map .str) :
    call (.str t) .join [.list place] [] s = .ok (.str (t.intercalate texts), s) := by
  have hcall : call (.str t) .join [.list place] [] s =
      (do return Value.str (t.intercalate (← textItems 0 (s.list place).toList)) :
        Operation Value) s := rfl
  rw [hcall, hlist, textItems_map]
  rfl

/-- The method `join` undoes `split`. Cut at a `separator`, the text `t` has `pieces` that do not
contain the separator, one more than there are occurrences of it, found from the left without
overlap (`Text.Found`); joined by the separator they are `t`. Cut without a separator, it has as
`words` the pieces between its blanks that are not empty; they have no blanks, and together they are
all that is not blank. -/
theorem join_split (s : Store) (t : String) :
    (∀ separator, separator ≠ "" → ∃ (pieces : List String) (place : Nat) (s' : Store),
      call (.str t) .split [.str separator] [] s = .ok (.list place, s') ∧
      (s'.list place).toList = pieces.map .str ∧
      call (.str separator) .join [.list place] [] s' = .ok (.str t, s') ∧
      (∀ piece ∈ pieces, ¬ separator.toList <:+: piece.toList ∧
        CompareOp.isIn.apply (.str separator) (.str piece) = pure false) ∧
      ∃ places, (∀ found, Text.Found separator.toList t.toList 0 found ↔ found = places) ∧
        pieces.length = places.length + 1) ∧
    ∃ (words : List String) (place : Nat) (s' : Store),
      call (.str t) .split [] [] s = .ok (.list place, s') ∧
      (s'.list place).toList = words.map .str ∧
      (∀ word ∈ words, word ≠ "" ∧ ∀ c ∈ word.toList, Text.isBlank c = false) ∧
      String.join words = String.ofList (t.toList.filter (!Text.isBlank ·)) ∧
      words.map String.toList = (t.toList.splitOnP Text.isBlank).filter (!·.isEmpty) := by
  refine ⟨fun separator hseparator => ?pieces, ?words⟩
  case pieces =>
    obtain ⟨place, s', hsplit, hlist⟩ :=
      call_split s t [.str separator] rfl (splitText_str hseparator t)
    refine ⟨_, place, s', hsplit, hlist, ?_, fun piece hpiece => ?_,
      Text.length_piecesAt hseparator t⟩
    · rw [call_join separator hlist, Text.intercalate_piecesAt hseparator]
    · have hnone := Text.not_isInfix_of_mem_piecesAt hseparator hpiece
      exact ⟨hnone, member_of_not_isInfix hnone⟩
  case words =>
    obtain ⟨place, s', hsplit, hlist⟩ := call_split s t [] rfl rfl
    refine ⟨_, place, s', hsplit, hlist, fun word hword => ?_, Text.join_words t,
      Text.toList_words t⟩
    obtain ⟨hne, hblank⟩ := Text.isWord_of_mem_words hword
    exact ⟨mt String.toList_eq_nil_iff.2 hne, hblank⟩

/-- In `aaaaa` the separator `aa` is found twice, although it stands at four places: the pieces are
two empty ones and the last `a`. -/
theorem join_split_overlap :
    "aa" ≠ "" ∧ ∃ place s',
      call (.str "aaaaa") .split [.str "aa"] [] .empty = .ok (.list place, s') ∧
      s'.list place = #[.str "", .str "", .str "a"] ∧
      call (.str "aa") .join [.list place] [] s' = .ok (.str "aaaaa", s') ∧
      ∃ places, Text.Found "aa".toList "aaaaa".toList 0 places ∧ places.length = 2 := by
  have hne : "aa" ≠ "" := by decide
  obtain ⟨pieces, place, s', hsplit, hlist, hjoin, -, places, hfound, hlength⟩ :=
    (join_split .empty "aaaaa").1 "aa" hne
  have hrun : call (.str "aaaaa") .split [.str "aa"] [] .empty =
      .ok (.list 0, ⟨#[#[.str "", .str "", .str "a"]], #[]⟩) := rfl
  rw [hrun] at hsplit
  cases hsplit
  have hcount : 3 = (pieces.map Value.str).length := congrArg List.length hlist
  rw [List.length_map] at hcount
  exact ⟨hne, 0, _, hrun, rfl, hjoin, places, (hfound places).2 rfl, by omega⟩

end Method

end Stepper
