import Stepper.Json.Codec
import Stepper.Proofs.Json.RoundTrip

/-!
# JSON is a lawful codec

* `Json.le_of_mem_stringChars`: no control character stands in the text of a string.
* `Json.objectFields?_object`: where no key stands twice, each field is what `List.lookup` finds.
* `Json.lawful_codec`: `Json.codec` does what is documented of a codec.
-/

namespace Stepper.Json

/-! ## Writing -/

theorem le_of_mem_hexPair {n : Nat} (h : n < 0x20) {ch : Char} (hch : ch ∈ Text.hexPair n) :
    ' ' ≤ ch := by
  have hdigits : ∀ n < 0x20, (Text.hexPair n).all (' ' ≤ ·) = true := by decide
  exact of_decide_eq_true (List.all_eq_true.1 (hdigits n h) ch hch)

/-- A character `c` that is not escaped comes after the control characters, and escapes are made of
letters, digits, quotes and backslashes. -/
theorem le_of_mem_escapeChar {c ch : Char} (h : ch ∈ escapeChar c) : ' ' ≤ ch := by
  have hpair {a b : Char} (ha : ' ' ≤ a) (hb : ' ' ≤ b) (h : ch ∈ [a, b]) : ' ' ≤ ch := by
    rw [List.mem_cons, List.mem_singleton] at h
    obtain rfl | rfl := h
    · exact ha
    · exact hb
  unfold escapeChar at h
  iterate 7
    split at h
    · exact hpair (by decide) (by decide) h
  split at h
  case isTrue hcontrol =>
    simp only [List.mem_cons] at h
    obtain rfl | rfl | rfl | rfl | hdigit := h
    · decide
    · decide
    · decide
    · decide
    · exact le_of_mem_hexPair hcontrol hdigit
  case isFalse hvisible =>
    obtain rfl := List.mem_singleton.1 h
    exact Nat.le_of_not_lt hvisible

theorem le_of_mem_stringChars {s : String} {ch : Char} (h : ch ∈ stringChars s) : ' ' ≤ ch := by
  rw [stringChars, List.mem_cons, List.mem_append, List.mem_flatMap, List.mem_singleton] at h
  obtain rfl | ⟨c, -, hc⟩ | rfl := h
  · decide
  · exact le_of_mem_escapeChar hc
  · decide

theorem render_list (items : List Json) :
    (list items).render = "[" ++ ",".intercalate (items.map render) ++ "]" := by
  rw [← String.toList_inj, render, String.toList_ofList, chars, Reader.itemsChars_eq]
  simp [String.toList_intercalate, Function.comp_def, render]

theorem render_object (entries : List (String × Json)) :
    (object entries).render =
      "\x7b" ++
        ",".intercalate (entries.map fun (key, value) => (str key).render ++ ":" ++ value.render) ++
        "\x7d" := by
  have hentry : Reader.entryChars = fun (key, value) => stringChars key ++ ':' :: value.chars := rfl
  rw [← String.toList_inj, render, String.toList_ofList, chars, Reader.entriesChars_eq, hentry]
  simp [String.toList_intercalate, Function.comp_def, render, chars]

/-! ## Reading -/

/-- What is written is read with nothing left over, so `f` alone decides. -/
theorem readWith_render {j : Json} (h : Plain depthLimit j) {f : Json → Option α} {a : α}
    (hf : f j = some a) : readWith f j.render = .ok a := by
  rw [readWith, render, String.toList_ofList, read_chars h]
  simp only [hf, List.all_nil, if_true]

theorem atMostOne?_eq_lookup {entries : List (String × Json)} (h : (entries.map (·.1)).Nodup)
    (key : String) : atMostOne? entries key = some (entries.lookup key) := by
  induction entries with
  | nil => rfl
  | cons entry entries ih =>
    obtain ⟨other, value⟩ := entry
    rw [List.map_cons, List.nodup_cons] at h
    by_cases hkey : other = key
    · -- No later entry has this key, so this one is the only one.
      subst hkey
      have hnone : entries.filter (·.1 == other) = [] := by
        rw [List.filter_eq_nil_iff]
        rintro entry hentry heq
        exact h.1 (List.mem_map.2 ⟨entry, hentry, beq_iff_eq.1 heq⟩)
      simp [atMostOne?, hnone]
    · have hskip : atMostOne? ((other, value) :: entries) key = atMostOne? entries key := by
        simp [atMostOne?, hkey]
      rw [hskip, ih h.2, List.lookup_cons, beq_false_of_ne (Ne.symm hkey)]

theorem objectFields?_object {entries : List (String × Json)} (h : (entries.map (·.1)).Nodup)
    (names : List String) :
    objectFields? names (object entries) = some (names.map fun name => entries.lookup name) := by
  rw [objectFields?, funext (atMostOne?_eq_lookup h)]
  exact List.mapM_pure

theorem named?_str {name : α → String} {cases : List α} (h : (cases.map name).Nodup) {a : α}
    (ha : a ∈ cases) : named? name cases (str (name a)) = some a := by
  have hfind : cases.find? (fun other => name other == name a) = some a := by
    rw [List.find?_eq_some_iff_append]
    obtain ⟨before, after, rfl⟩ := List.append_of_mem ha
    refine ⟨beq_self_eq_true _, before, after, rfl, fun other hother => ?_⟩
    rw [List.map_append, List.map_cons, List.nodup_append] at h
    have hne : name other ≠ name a :=
      h.2.2 _ (List.mem_map.2 ⟨other, hother, rfl⟩) _ List.mem_cons_self
    simpa using hne
  exact hfind

/-- A number `n` of 64 bits is found in its digits. -/
theorem natural?_natural {n : Nat} (h : n < 2 ^ 64) : natural? (natural n) = some n := by
  rw [natural, natural?, String.toList_ofList, Number.short?_toDigits h, Option.filter_some,
    if_pos (by simpa using h)]

theorem lawful_codec : codec.Lawful where
  write_null := rfl
  write_bool b := by cases b <;> rfl
  write_natural n := by
    change String.ofList (natural n).chars = toString n
    rw [chars_natural]
    rfl
  write_str s ch hch := by
    change ch ∈ (render (str s)).toList at hch
    rw [render, String.toList_ofList] at hch
    exact le_of_mem_stringChars hch
  write_list := render_list
  write_object := render_object
  read_write h _ _ _ hf := readWith_render h hf
  ofFields_eq _ := rfl
  fields?_object := objectFields?_object
  caseFields?_object := objectFields?_object
  first?_eq _ _ := rfl
  named?_str h _ ha := named?_str h ha
  entries?_object _ := rfl
  nullable?_str _ _ := rfl
  bool?_bool _ := rfl
  str?_str _ := rfl
  natural?_natural := natural?_natural

end Stepper.Json
