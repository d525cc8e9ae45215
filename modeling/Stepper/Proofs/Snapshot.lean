import Stepper.Proofs.Value.Depth
import Stepper.Snapshot

/-!
# What a snapshot shows

* `Snapshot.Abridges`: a text is shown as it is, or as its first characters and a mark.
* `Snapshot.shownAs_of_textsOf`: the texts of bindings are those of their values, abridged.
* `Snapshot.exists_textsOf_iff`: there are such texts unless a value has a path that is too long.
* `Snapshot.capture_complete`: a snapshot shows all bindings that are to be shown, unless a path
  from one of their values is too long to be written. Then it shows nothing.
-/

namespace Stepper

namespace Snapshot

variable {s : Store} {limit : Nat} {bindings : List (String × Value)} {text : String}

/-- What is shown of a `text`: all of it if it has no more characters than `limit`, or if the limit
is `0`, and else as many characters as the limit allows, and three dots. -/
inductive Abridges (limit : Nat) : String → String → Prop
  | whole {text : String} : limit = 0 ∨ text.length ≤ limit → Abridges limit text text
  | start {front back : String} : limit ≠ 0 → front.length = limit → back ≠ "" →
      Abridges limit (front ++ back) (front ++ "...")

theorem cut_abridges (limit : Nat) (text : String) : Abridges limit text (cut limit text) := by
  by_cases h : limit = 0 ∨ text.length ≤ limit
  · rw [cut, if_pos (by simpa using h)]
    exact .whole h
  · rw [cut, if_neg (by simpa using h)]
    push Not at h
    obtain ⟨hlimit, hlength⟩ := h
    have htext : text = String.ofList (text.toList.take limit) ++
        String.ofList (text.toList.drop limit) := by
      rw [← String.ofList_append, List.take_append_drop, String.ofList_toList]
    have hfront : (String.ofList (text.toList.take limit)).length = limit := by
      rw [String.length_ofList, List.length_take, String.length_toList]
      omega
    have hback : String.ofList (text.toList.drop limit) ≠ "" := by
      intro hnone
      have hlost := congrArg String.length hnone
      rw [String.length_ofList, List.length_drop, String.length_toList,
        String.length_empty] at hlost
      omega
    have habridged := Abridges.start hlimit hfront hback
    rwa [← htext] at habridged

/-- A binding `b` and how it is shown, `var`: under its name, with the text of its value
abridged. -/
def ShownAs (s : Store) (limit : Nat) (b : String × Value) (var : String × String) : Prop :=
  var.1 = b.1 ∧ ∃ text, s.repr b.2 = .ok text ∧ Abridges limit text var.2

/-- The `bindings` that are to be shown. -/
def shown (bindings : List (String × Value)) : List (String × Value) :=
  bindings.filter fun b => shows b.1 b.2

theorem mem_shown {b : String × Value} : b ∈ shown bindings ↔
    b ∈ bindings ∧ ¬ ['_', '_'] <+: b.1.toList ∧ b.2.isCallable = false := by
  simp [shown, shows, ← List.isPrefixOf_iff_prefix]

theorem shownAs_of_textsOf {vars : List (String × String)}
    (h : textsOf s limit bindings = .ok vars) :
    List.Forall₂ (ShownAs s limit) (shown bindings) vars := by
  refine (mapM_eq_ok_iff.1 h).imp fun b var hvar => ?_
  cases htext : s.repr b.2 with
  | error e =>
    rw [htext] at hvar
    cases hvar
  | ok text =>
    rw [htext] at hvar
    obtain rfl : (b.1, cut limit text) = var := Except.ok.inj hvar
    exact ⟨rfl, text, htext, cut_abridges limit text⟩

theorem exists_textsOf_iff :
    (∃ vars, textsOf s limit bindings = .ok vars) ↔
      ∀ b ∈ shown bindings, ¬ s.HasLongPath b.2 := by
  unfold textsOf shown
  rw [exists_mapM_iff]
  exact forall₂_congr fun b _ => (exists_map_iff _).trans Store.exists_repr_iff

/-- A snapshot of `bindings` without long paths: each of the `shown` ones is `ShownAs` it should
be. -/
theorem shownAs_capture (h : ∀ b ∈ shown bindings, ¬ s.HasLongPath b.2) :
    List.Forall₂ (ShownAs s limit) (shown bindings) (capture s limit bindings).vars := by
  obtain ⟨vars, hvars⟩ := exists_textsOf_iff.2 h
  rw [capture, hvars]
  exact shownAs_of_textsOf hvars

/-- A snapshot of `bindings` with a long path shows nothing. -/
theorem capture_of_hasLongPath (h : ∃ b ∈ shown bindings, s.HasLongPath b.2) :
    capture s limit bindings = empty := by
  have hnone : ¬ ∃ vars, textsOf s limit bindings = .ok vars := by
    rw [exists_textsOf_iff]
    push Not
    exact h
  unfold capture
  split
  · next vars hvars => exact absurd ⟨vars, hvars⟩ hnone
  · rfl

/-- A value `v` is written unless a path through what it holds, item by item and entry by entry, has
more than `100` steps; the limit decides nothing else about its text. So a snapshot of `bindings`
shows those that are neither reserved nor callable, in their order, each with the text of its value
abridged (`ShownAs`); but if one of these values has such a path, and only then, it shows nothing
instead. -/
theorem capture_complete (s : Store) (limit : Nat) (bindings : List (String × Value)) :
    (∀ v, s.repr v = .error {} ↔ ∃ n w, 100 < n ∧ s.Path n v w) ∧
    (∀ v text, s.repr v = .ok text → ∀ levels > 100, s.reprWithin levels v = .ok text) ∧
    ((∀ b ∈ shown bindings, ¬ s.HasLongPath b.2) →
      List.Forall₂ (ShownAs s limit) (shown bindings) (capture s limit bindings).vars) ∧
    (capture s limit bindings = empty ↔
      shown bindings = [] ∨ ∃ b ∈ shown bindings, s.HasLongPath b.2) := by
  refine ⟨fun v => Store.repr_eq_error_iff, fun v text h levels hlevels => ?_, shownAs_capture, ?_⟩
  · exact Store.reprWithin_of_le h hlevels
  by_cases hlong : ∃ b ∈ shown bindings, s.HasLongPath b.2
  · exact iff_of_true (capture_of_hasLongPath hlong) (.inr hlong)
  · have hall : List.Forall₂ (ShownAs s limit) (shown bindings) (capture s limit bindings).vars :=
      shownAs_capture fun b hb hpath => hlong ⟨b, hb, hpath⟩
    simp only [hlong, or_false]
    constructor
    · intro hempty
      rw [hempty] at hall
      exact List.forall₂_nil_right_iff.1 hall
    · intro hnone
      rw [hnone, List.forall₂_nil_left_iff] at hall
      exact congrArg Snapshot.mk hall

/-- The bindings of a list, a reserved name and a function, and with them a list that contains
itself. -/
theorem capture_complete_cycle :
    let s : Store := ⟨#[#[.list 0, .int 1], #[.int 10, .str "a"]], #[]⟩
    let bindings : List (String × Value) :=
      [("__name__", .str "__main__"), ("xs", .list 1), ("f", .builtin .len), ("n", .int 1234)]
    (∀ b ∈ shown bindings, ¬ s.HasLongPath b.2) ∧
      List.Forall₂ (ShownAs s 4) [("xs", .list 1), ("n", .int 1234)]
        [("xs", "[10,..."), ("n", "1234")] ∧
      s.repr (.list 0) = .error {} ∧ capture s 4 (bindings ++ [("self", .list 0)]) = empty := by
  intro s bindings
  have hshown : shown bindings = [("xs", .list 1), ("n", .int 1234)] := rfl
  have hshort : ∀ b ∈ shown bindings, ¬ s.HasLongPath b.2 := by
    rw [hshown]
    simp only [List.forall_mem_cons]
    exact ⟨Store.exists_repr_iff.1 ⟨"[10, 'a']", rfl⟩, Store.exists_repr_iff.1 ⟨"1234", rfl⟩,
      List.forall_mem_nil _⟩
  obtain ⟨-, -, hvars, -⟩ := capture_complete s 4 bindings
  have hpart : .list 0 ∈ s.parts (.list 0) := by simp [s, Store.parts, Store.list]
  have hround : s.Path 1 (.list 0) (.list 0) := .step hpart (.here _)
  have hself : s.HasLongPath (.list 0) := hround.hasLongPath
  obtain ⟨herror, -, -, hempty⟩ := capture_complete s 4 (bindings ++ [("self", .list 0)])
  exact ⟨hshort, hvars hshort, (herror _).2 hself,
    hempty.2 (.inr ⟨("self", .list 0), by simp [mem_shown, Value.isCallable], hself⟩)⟩

end Snapshot

end Stepper
