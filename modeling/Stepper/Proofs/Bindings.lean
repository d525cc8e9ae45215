import Mathlib.Data.List.Nodup
import Stepper.Frame

/-!
# The names that a frame has bound

* `Frame.names`: the names, in the order in which they were first bound.
* `Frame.names_bindIn`: binding a name adds it at the end, or leaves all names where they are.
* `Frame.prefix_bindIn`, `Frame.nodup_bindIn`: so the names before are a prefix of those after, and
  no name comes to be there twice.
* `Frame.foldl_bindIn`: new names that are bound in turn stand in that order.
* `Frame.slots_set`, `Frame.listing_slots`: a frame may as well keep its values in a map and the
  order of its names apart from it; the two stay in step.
-/

namespace Stepper.Frame

/-- The names that `f` has bound, in the order in which they were first bound. -/
def names (f : Frame) : List String :=
  f.bindings.map (·.1)

variable {name : String} {value : Value} {bindings : List (String × Value)}

theorem bindIn_of_not_mem (h : name ∉ bindings.map (·.1)) :
    bindIn name value bindings = bindings ++ [(name, value)] := by
  induction bindings with
  | nil => rfl
  | cons b rest ih =>
    obtain ⟨hne, hrest⟩ := not_or.1 (mt List.mem_cons.2 h)
    rw [bindIn, if_neg (Ne.symm hne), ih hrest]
    rfl

theorem names_bindIn_of_mem (h : name ∈ bindings.map (·.1)) :
    (bindIn name value bindings).map (·.1) = bindings.map (·.1) := by
  induction bindings with
  | nil => cases h
  | cons b rest ih =>
    obtain ⟨n, v⟩ := b
    rw [bindIn]
    split
    · rfl
    · rename_i hne
      have hrest : name ∈ rest.map (·.1) := (List.mem_cons.1 h).resolve_left (Ne.symm hne)
      rw [List.map_cons, List.map_cons, ih hrest]

/-- A `name` that is bound keeps its place, and one that is not comes last. -/
theorem names_bindIn : (bindIn name value bindings).map (·.1) =
    if name ∈ bindings.map (·.1) then bindings.map (·.1) else bindings.map (·.1) ++ [name] := by
  split
  · exact names_bindIn_of_mem ‹_›
  · rw [bindIn_of_not_mem ‹_›, List.map_append]
    rfl

theorem mem_bindIn {n : String} :
    n ∈ (bindIn name value bindings).map (·.1) ↔ n ∈ bindings.map (·.1) ∨ n = name := by
  rw [names_bindIn]
  split
  · rename_i h
    exact ⟨.inl, fun hn => hn.elim id fun heq => heq ▸ h⟩
  · rw [List.mem_append, List.mem_singleton]

theorem prefix_bindIn :
    bindings.map (·.1) <+: (bindIn name value bindings).map (·.1) := by
  rw [names_bindIn]
  split
  · exact List.prefix_rfl
  · exact List.prefix_append _ _

theorem nodup_bindIn (h : (bindings.map (·.1)).Nodup) :
    ((bindIn name value bindings).map (·.1)).Nodup := by
  rw [names_bindIn]
  split
  · exact h
  · rename_i hnew
    rw [← List.concat_eq_append]
    exact h.concat hnew

/-- The bindings `more`, with names that are all new, bound one after the other. -/
theorem foldl_bindIn {more : List (String × Value)}
    (h : (bindings.map (·.1) ++ more.map (·.1)).Nodup) :
    more.foldl (fun bound b => bindIn b.1 b.2 bound) bindings = bindings ++ more := by
  induction more generalizing bindings with
  | nil => exact (List.append_nil bindings).symm
  | cons b more ih =>
    have hnew : b.1 ∉ bindings.map (·.1) := fun hb =>
      (List.nodup_append.1 h).2.2 b.1 hb b.1 List.mem_cons_self rfl
    rw [List.foldl_cons, bindIn_of_not_mem hnew, ih, List.append_assoc]
    · rfl
    · simpa [List.append_assoc] using h

/-! ## A map and an order -/

theorem isSome_get? {f : Frame} {n : String} : (f.get? n).isSome ↔ n ∈ f.names := by
  rw [get?, names, List.lookup_isSome_iff, List.mem_map]
  exact exists_congr fun b => and_congr_right fun _ => beq_iff_eq.trans eq_comm

theorem lookup_bindIn {n : String} : (bindIn name value bindings).lookup n =
    if n = name then some value else bindings.lookup n := by
  induction bindings with
  | nil => grind [bindIn]
  | cons b rest ih => grind [bindIn]

theorem lookup_of_mem (hnames : (bindings.map (·.1)).Nodup) (h : (name, value) ∈ bindings) :
    bindings.lookup name = some value := by
  obtain ⟨before, after, rfl⟩ := List.append_of_mem h
  refine List.lookup_eq_some_iff.2 ⟨before, after, rfl, fun b hb => ?_⟩
  rw [List.map_append, List.nodup_append] at hnames
  exact bne_iff_ne.2 fun heq => hnames.2.2 b.1 (List.mem_map_of_mem hb) name (by simp) heq.symm

/-- A map `value?` from names to values, and apart from it the names in the `order` in which they
were first bound. -/
structure Slots where
  value? : String → Option Value
  order : List String

/-- Binds `name` to `value` in the map. A name that is not there yet comes last in the order. -/
def Slots.set (s : Slots) (name : String) (value : Value) : Slots where
  value? n := if n = name then some value else s.value? n
  order := if (s.value? name).isSome then s.order else s.order ++ [name]

/-- The names of `s` in order, each with its value from the map. -/
def Slots.listing (s : Slots) : List (String × Value) :=
  s.order.filterMap fun n => (s.value? n).map (n, ·)

/-- The map and the order of the frame `f`. -/
def slots (f : Frame) : Slots :=
  ⟨f.get?, f.names⟩

theorem slots_set (f : Frame) (name : String) (value : Value) :
    (f.set name value).slots = f.slots.set name value := by
  simp only [slots, Slots.set, Slots.mk.injEq, isSome_get?]
  exact ⟨funext fun n => lookup_bindIn, names_bindIn⟩

/-- Where no name of `f` is bound twice, the map and the order tell all bindings. -/
theorem listing_slots {f : Frame} (h : f.names.Nodup) : f.slots.listing = f.bindings := by
  have hvalue (b) (hb : b ∈ f.bindings) : (f.get? b.1).map (b.1, ·) = some b := by
    rw [get?, lookup_of_mem h hb]
    rfl
  calc f.slots.listing
      = f.bindings.filterMap fun b => (f.get? b.1).map (b.1, ·) := List.filterMap_map
    _ = f.bindings.filterMap some := List.filterMap_congr hvalue
    _ = f.bindings := List.filterMap_some

end Stepper.Frame
