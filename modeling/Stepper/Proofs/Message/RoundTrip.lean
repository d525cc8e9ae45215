import Stepper.Proofs.Json.Lawful

/-!
# Messages arrive as they are sent

What holds of every lawful codec `c`, whatever its texts look like beyond what is documented.

* `Codec.Lawful.lineFeed_not_mem_write`: the text of a plain value is on one line.
* `Codec.Lawful.message?_ofFields`: the keys of a message tell which one it is, although every other
  constructor is tried that comes before it.
* `Codec.Lawful.decode_text`: so the text of a message is decoded to the message.
* `Wire.stream`: the bytes that have been written to a channel in memory.
* `Message.decode_sent`: the bytes of messages that have been sent, split at line feeds, are decoded
  to these messages.
-/

namespace Stepper

/-! ## Texts and bytes -/

/-- Nothing is trimmed from a text whose first and last characters, `a` and `b`, are not. -/
theorem Text.trimBoth_eq_self {p : Char → Bool} {a b : Char} {cs : List Char} (ha : p a = false)
    (hb : p b = false) : Text.trimBoth p (a :: (cs ++ [b])) = a :: (cs ++ [b]) := by
  simp [Text.trimBoth, ha, hb]

/-- The bytes of `s` in UTF-8. -/
def Text.bytes (s : String) : List UInt8 :=
  s.toUTF8.data.toList

namespace Text

theorem bytes_eq_flatMap (s : String) : bytes s = s.toList.flatMap String.utf8EncodeChar := by
  rw [bytes, String.toUTF8, ← String.utf8Encode_toList, List.utf8Encode,
    List.toList_data_toByteArray]

theorem fromUTF8?_bytes (s : String) : String.fromUTF8? (bytes s).toByteArray = some s := by
  rw [bytes_eq_flatMap, ← List.utf8Encode, String.utf8Encode_toList, String.fromUTF8?,
    dif_pos s.isValidUTF8]
  rfl

/-- Of all characters `c`, only a line feed has its byte. -/
theorem lineFeed_mem_utf8EncodeChar {c : Char} (h : lineFeed ∈ String.utf8EncodeChar c) :
    c = '\n' := by
  have hbyte {n : Nat} (hn : lineFeed = UInt8.ofNat n) : n % 256 = 10 := by
    have htoNat := congrArg UInt8.toNat hn
    rw [UInt8.toNat_ofNat'] at htoNat
    exact htoNat.symm
  rw [String.utf8EncodeChar] at h
  split at h
  · rw [List.mem_singleton] at h
    have hval := hbyte h
    exact Char.ext (UInt32.toNat_inj.1 (show c.val.toNat = 10 by omega))
  -- all bytes of longer encodings are at least 128
  split at h
  · simp only [List.mem_cons, List.not_mem_nil, or_false] at h
    rcases h with h | h <;> have := hbyte h <;> omega
  split at h
  · simp only [List.mem_cons, List.not_mem_nil, or_false] at h
    rcases h with h | h | h <;> have := hbyte h <;> omega
  · simp only [List.mem_cons, List.not_mem_nil, or_false] at h
    rcases h with h | h | h | h <;> have := hbyte h <;> omega

theorem lineFeed_not_mem_bytes {s : String} (h : '\n' ∉ s.toList) : lineFeed ∉ bytes s := by
  rw [bytes_eq_flatMap, List.mem_flatMap]
  rintro ⟨c, hc, hbyte⟩
  exact h (lineFeed_mem_utf8EncodeChar hbyte ▸ hc)

end Text

/-! ## Messages as objects -/

namespace Message

/-- The line of a message has 64 bits, if the message has a line: only a `step` has one. -/
def LineFits : Message → Prop
  | step e => e.line < 2 ^ 64
  | _ => True

/-- The fields of `m` that are not skipped. -/
def entries (m : Message) : List (String × Json) :=
  m.fields.filterMap fun (name, value) => value.map (name, ·)

theorem nodup_keys (m : Message) : (m.entries.map (·.1)).Nodup := by
  cases m with
  | error e =>
    obtain ⟨kind, trace, detail⟩ := e
    cases detail <;> simp [entries, fields]
  | _ => simp [entries, fields]

theorem plain {m : Message} (h : m.LineFits) : Json.Plain Json.depthLimit (.object m.entries) := by
  have hvalues : ∀ entry ∈ m.entries, Json.Plain (124 + 1 + 1) entry.2 := by
    cases m with
    | step e =>
      have hvars : Json.Plain (124 + 1 + 1) e.vars.toJson := by
        refine .object fun entry hentry => ?_
        obtain ⟨var, -, rfl⟩ := List.mem_map.1 hentry
        exact .str _
      simp only [entries, fields, List.filterMap_cons, Option.map_some, List.filterMap_nil,
        List.mem_cons, List.not_mem_nil, or_false, forall_eq_or_imp, forall_eq]
      exact ⟨.natural h, .str _, hvars, .str _⟩
    | error e =>
      obtain ⟨kind, trace, detail⟩ := e
      cases detail <;> simp [entries, fields, Json.Plain.str]
    | _ => simp [entries, fields, Json.Plain.str, Json.Plain.bool]
  exact .object hvalues

end Message

namespace Codec

/-- The text of the line of `m` with the codec `c`, without its end. -/
def text (c : Codec) (m : Message) : String :=
  c.write (c.ofFields m.fields)

/-- The message that the bytes of `line` are decoded to, if they are a text. -/
def ofBytes? (c : Codec) (line : List UInt8) : Option (Except c.Fault Message) :=
  (String.fromUTF8? line.toByteArray).map c.decode

namespace Lawful

variable {c : Codec} {m : Message}

/-! ## Writing -/

/-- Commas do not bring `\n` into `texts` on one line. -/
theorem lineFeed_not_mem_intercalate {texts : List String} (h : ∀ t ∈ texts, '\n' ∉ t.toList) :
    '\n' ∉ (",".intercalate texts).toList := by
  have hcomma : '\n' ∉ ",".toList := by decide
  rw [String.toList_intercalate]
  induction texts with
  | nil => exact List.not_mem_nil
  | cons t texts ih =>
    rw [List.forall_mem_cons] at h
    have hrest := ih h.2
    cases texts with
    | nil => simpa using h.1
    | cons u texts =>
      rw [List.map_cons, List.map_cons, List.intercalate_cons_cons, List.mem_append,
        List.mem_append, not_or, not_or]
      exact ⟨⟨h.1, hcomma⟩, hrest⟩

/-- The text of a plain value `j` is on one line: only a string could hold `\n`, and there it is
escaped. -/
theorem lineFeed_not_mem_write (hc : c.Lawful) {depth : Nat} {j : Json} (h : Json.Plain depth j) :
    '\n' ∉ (c.write j).toList := by
  have hstr (s : String) : '\n' ∉ (c.write (.str s)).toList := fun hmem =>
    absurd (hc.write_str s '\n' hmem) (by decide)
  induction h with
  | null => rw [hc.write_null]; decide
  | bool b => rw [hc.write_bool]; cases b <;> decide
  | @natural _ n _ =>
    intro hmem
    rw [hc.write_natural] at hmem
    change '\n' ∈ (String.ofList (Nat.toDigits 10 n)).toList at hmem
    rw [String.toList_ofList] at hmem
    exact absurd (Number.isAsciiDigit_of_mem_toDigits hmem) (by decide)
  | str s => exact hstr s
  | @list _ items _ ih =>
    have hitems := lineFeed_not_mem_intercalate (List.forall_mem_map.2 ih)
    rw [hc.write_list, String.toList_append, String.toList_append, List.mem_append,
      List.mem_append, not_or, not_or]
    exact ⟨⟨by decide, hitems⟩, by decide⟩
  | @object _ entries _ ih =>
    have hentry : ∀ e ∈ entries, '\n' ∉ (c.write (.str e.1) ++ ":" ++ c.write e.2).toList := by
      intro e he
      simp [hstr e.1, ih e he]
    have hentries :=
      lineFeed_not_mem_intercalate (List.forall_mem_map.2 hentry)
    rw [hc.write_object, String.toList_append, String.toList_append, List.mem_append,
      List.mem_append, not_or, not_or]
    exact ⟨⟨by decide, hentries⟩, by decide⟩

theorem ofFields_fields (hc : c.Lawful) (m : Message) : c.ofFields m.fields = .object m.entries :=
  hc.ofFields_eq m.fields

/-- The only line feed is at the end of the line, not in `c.text m`. -/
theorem lineFeed_not_mem_text (hc : c.Lawful) (h : m.LineFits) :
    lineFeed ∉ Text.bytes (c.text m) := by
  refine Text.lineFeed_not_mem_bytes ?_
  rw [text, hc.ofFields_fields]
  exact hc.lineFeed_not_mem_write (Message.plain h)

/-! ## Decoding -/

/-- The fields of `m` are what its entries hold under `names`. -/
theorem fields?_ofFields (hc : c.Lawful) (m : Message) (names : List String) :
    c.fields? names (c.ofFields m.fields) = some (names.map fun name => m.entries.lookup name) := by
  rw [hc.ofFields_fields]
  exact hc.fields?_object m.nodup_keys names

theorem caseFields?_ofFields (hc : c.Lawful) (m : Message) (names : List String) :
    c.caseFields? names (c.ofFields m.fields) =
      some (names.map fun name => m.entries.lookup name) := by
  rw [hc.ofFields_fields]
  exact hc.caseFields?_object m.nodup_keys names

theorem errorKind?_name (hc : c.Lawful) (kind : ErrorKind) :
    c.errorKind? (.str kind.name) = some kind :=
  hc.named?_str (by decide) (by cases kind <;> decide)

/-- No binding of the snapshot `s` is lost, also if several have one name. -/
theorem snapshot?_toJson (hc : c.Lawful) (s : Snapshot) : c.snapshot? s.toJson = some s := by
  have hvars : ∀ vars : List (String × String),
      (vars.map fun var => (var.1, Json.str var.2)).mapM c.binding? = some vars := by
    intro vars
    induction vars with
    | nil => rfl
    | cons var vars ih => simp [List.mapM_cons, ih, binding?, hc.str?_str]
  rw [snapshot?, Snapshot.toJson, hc.entries?_object, Option.bind_eq_bind, Option.bind_some]
  change (List.mapM c.binding? (s.vars.map fun var => (var.1, Json.str var.2)) >>= _) = _
  rw [hvars]
  rfl

/-- The message `m` has the form of its own case and of none that is tried before: each of those
wants a key that `m` does not have. -/
theorem message?_ofFields (hc : c.Lawful) (h : m.LineFits) :
    c.message? (c.ofFields m.fields) = some m := by
  have hfields := hc.fields?_ofFields m
  have hcase := hc.caseFields?_ofFields m
  rw [message?, hc.first?_eq]
  generalize c.ofFields m.fields = j at hfields hcase ⊢
  -- The forms before that of `m` fail on a key that `m` does not have; its own finds all its
  -- fields.
  cases m with
  | step e =>
    have hline := hc.natural?_natural h
    simp [ready?, step?, hcase, hfields, Message.entries, Message.fields, hline,
      hc.str?_str, hc.snapshot?_toJson, List.lookup_cons]
  | error e =>
    obtain ⟨kind, trace, detail⟩ := e
    cases detail <;>
      simp [ready?, step?, info?, finished?, error?, hcase, hfields,
        Message.entries, Message.fields, hc.str?_str, hc.errorKind?_name, hc.nullable?_str,
        List.lookup_cons]
  | _ =>
    simp [ready?, step?, info?, finished?, error?, waitingForNewCode?,
      heartbeat?, hcase, hfields, Message.entries, Message.fields, hc.str?_str, hc.bool?_bool,
      List.lookup_cons]

/-- Nothing is trimmed from the text of an object, which starts with `\x7b` and ends with `\x7d`. -/
theorem trim_text (hc : c.Lawful) (m : Message) : Text.trim (c.text m) = c.text m := by
  obtain ⟨inner, hinner⟩ : ∃ inner : String, c.text m = "\x7b" ++ inner ++ "\x7d" :=
    ⟨_, by rw [text, hc.ofFields_fields, hc.write_object]⟩
  have hchars : (c.text m).toList = '\x7b' :: (inner.toList ++ ['\x7d']) := by rw [hinner]; simp
  rw [Text.trim, hchars, Text.trimBoth_eq_self rfl rfl, ← hchars, String.ofList_toList]

theorem decode_text (hc : c.Lawful) (h : m.LineFits) : c.decode (c.text m) = .ok m := by
  rw [decode, hc.trim_text, text]
  have hread := hc.message?_ofFields h
  rw [hc.ofFields_fields] at hread ⊢
  exact hc.read_write (Message.plain h) hread

theorem ofBytes?_text (hc : c.Lawful) (h : m.LineFits) :
    c.ofBytes? (Text.bytes (c.text m)) = some (.ok m) := by
  rw [ofBytes?, Text.fromUTF8?_bytes, Option.map_some, hc.decode_text h]

end Lawful

end Codec

/-! ## Channels -/

namespace Wire

/-- The bytes that have been written on `w`. -/
def stream (w : Wire) : List UInt8 :=
  w.sent.toList.flatMap Text.bytes

variable {c : Codec}

theorem run_send (m : Message) {w : Wire} (h : w.writesLeft = none) :
    ((endpointWith c).send m).run.run w = (.ok (), { w with sent := w.sent.push (c.line m) }) := by
  change (match w.write (c.line m) with | (r, w') => _) = _
  obtain ⟨unread, sent, writesLeft⟩ := w
  cases h
  rfl

/-- Where writing does not fail, the messages `ms` are written one after the other. -/
theorem run_forM_send (ms : List Message) {w : Wire} (h : w.writesLeft = none) :
    (forM ms (endpointWith c).send).run.run w =
      (.ok (), { w with sent := w.sent ++ (ms.map c.line).toArray }) := by
  induction ms generalizing w with
  | nil => simp; rfl
  | cons m ms ih =>
    have hms := ih (w := { w with sent := w.sent.push (c.line m) }) h
    rw [List.forM_cons, ExceptT.run_bind, StateT.run_bind, run_send m h]
    change (forM ms (endpointWith c).send).run.run { w with sent := w.sent.push (c.line m) } = _
    rw [hms]
    simp

end Wire

theorem Codec.bytes_line (c : Codec) (m : Message) :
    Text.bytes (c.line m) = Text.bytes (c.text m) ++ [lineFeed] := by
  simp only [Text.bytes_eq_flatMap, line, text, String.toList_append, List.flatMap_append]
  rfl

/-- The `lines` that are ended by line feeds, and hold none themselves, are what is between the line
feeds. -/
theorem splitOn_lines {lines : List (List UInt8)} (h : ∀ line ∈ lines, lineFeed ∉ line) :
    (lines.map (· ++ [lineFeed])).flatten.splitOn lineFeed = lines ++ [[]] ∧
      (lines.map (· ++ [lineFeed])).flatten.count lineFeed = lines.length := by
  induction lines with
  | nil => exact ⟨rfl, rfl⟩
  | cons line lines ih =>
    simp only [List.mem_cons, forall_eq_or_imp] at h
    obtain ⟨hsplit, hcount⟩ := ih h.2
    simp only [List.map_cons, List.flatten_cons, List.append_assoc, List.singleton_append]
    constructor
    · rw [List.splitOn_append_cons_self_of_not_mem h.1, hsplit]
      rfl
    · rw [List.count_append, List.count_eq_zero.2 h.1, List.count_cons_self, hcount]
      simp

namespace Message

/-- Whatever messages `ms` are sent with a lawful codec, in whatever order: their bytes have one
line feed for each of them, at the end of its line; and the bytes between the line feeds are decoded
to the messages that have been sent. Lines of programs are numbers of 64 bits (`LineFits`). -/
theorem decode_sent {c : Codec} (hc : c.Lawful) {ms : List Message} (h : ∀ m ∈ ms, m.LineFits)
    (input : List UInt8) :
    ∃ w lines,
      (forM ms (Wire.endpointWith c).send).run.run (Wire.ofInput input none) = (.ok (), w) ∧
      w.sent.toList.map Text.bytes = lines.map (· ++ [lineFeed]) ∧
      w.stream.count lineFeed = ms.length ∧
      w.stream.splitOn lineFeed = lines ++ [[]] ∧
      lines.map c.ofBytes? = ms.map fun m => some (.ok m) := by
  let lines := ms.map fun m => Text.bytes (c.text m)
  have hlines : ∀ line ∈ lines, lineFeed ∉ line := by
    intro line hline
    obtain ⟨m, hm, rfl⟩ := List.mem_map.1 hline
    exact hc.lineFeed_not_mem_text (h m hm)
  have hsent : (ms.map c.line).map Text.bytes = lines.map (· ++ [lineFeed]) := by
    simp only [lines, List.map_map]
    exact List.map_congr_left fun m _ => c.bytes_line m
  obtain ⟨w, hw, hwsent⟩ : ∃ w,
      (forM ms (Wire.endpointWith c).send).run.run (Wire.ofInput input none) = (.ok (), w) ∧
        w.sent.toList = ms.map c.line :=
    ⟨_, Wire.run_forM_send ms rfl, by simp [Wire.ofInput]⟩
  have hstream : w.stream = (lines.map (· ++ [lineFeed])).flatten := by
    rw [Wire.stream, hwsent, ← hsent]
    rfl
  obtain ⟨hsplit, hcount⟩ := splitOn_lines hlines
  refine ⟨w, lines, hw, by rw [hwsent, hsent], ?_, by rw [hstream, hsplit], ?_⟩
  · rw [hstream, hcount, List.length_map]
  · simp only [lines, List.map_map]
    exact List.map_congr_left fun m hm => hc.ofBytes?_text (h m hm)

/-- One message of each kind as JSON: with the largest line, a name that stands twice and one that
is empty, line feeds, quotes and control characters in texts, and with and without a line about an
error. -/
theorem decode_sent_each :
    let ms : List Message := [.ready true,
      .step ⟨2 ^ 64 - 1, "<source>", ⟨[("x", "1"), ("x", "'\n'"), ("", "\"\x00é")]⟩, "a\nb\n"⟩,
      .info "max_steps_reached", .finished false "\u2028", .error ⟨.exception, "\t\\", none⟩,
      .error ⟨.fatal, "trace", some ""⟩, .waitingForNewCode true, .heartbeat true "😀\r"]
    Json.codec.Lawful ∧
      ∃ w lines, (forM ms (Wire.endpointWith Json.codec).send).run.run (Wire.ofInput [] none) =
          (.ok (), w) ∧
        w.stream.count lineFeed = 8 ∧ w.stream.splitOn lineFeed = lines ++ [[]] ∧
        lines.map Json.codec.ofBytes? = ms.map fun m => some (.ok m) := by
  intro ms
  have hfits : ∀ m ∈ ms, m.LineFits := by simp [ms, LineFits]
  obtain ⟨w, lines, hrun, -, hcount, hsplit, hread⟩ := decode_sent Json.lawful_codec hfits []
  exact ⟨Json.lawful_codec, w, lines, hrun, hcount, hsplit, hread⟩

end Message

end Stepper
