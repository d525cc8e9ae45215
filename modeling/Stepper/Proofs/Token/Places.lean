import Stepper.Proofs.Text.Lines
import Stepper.Proofs.Token.Lexed

/-!
# Where tokens stand

* `isBlank_of_scanToken`: no token begins with a blank.
* `Lexeme.ReadIn`: a lexeme is what the scanner reads at its place in a source.
* `WellPlaced`: so are the lexemes of a source that are not layout, and their places increase.
* `Lexed.readIn`, `Laid.increasing`: the lexer keeps both, hence `lexemes_wellPlaced`.
-/

namespace Stepper

variable {tabStop : Nat} {fresh : Bool} {c : Char} {cs rest source : List Char} {ls : List Lexeme}

/-! ## Tokens begin with a visible character -/

namespace Text

/-- The code points of the blank characters. -/
def blankCodes : List Nat :=
  [0x09, 0x0A, 0x0B, 0x0C, 0x0D, 0x20, 0x85, 0xA0, 0x1680, 0x2000, 0x2001, 0x2002, 0x2003, 0x2004,
    0x2005, 0x2006, 0x2007, 0x2008, 0x2009, 0x200A, 0x2028, 0x2029, 0x202F, 0x205F, 0x3000]

theorem toNat_mem_blankCodes (h : isBlank c = true) : c.toNat ∈ blankCodes := by
  simp only [blankCodes, List.mem_cons, List.not_mem_nil, or_false]
  unfold isBlank at h
  dsimp only at h
  split at h <;>
    · simp only [Bool.or_eq_true, Bool.and_eq_true, decide_eq_true_eq, beq_iff_eq] at h
      omega

/-- A property `p` that no blank has tells that a character `c` is not blank. -/
theorem isBlank_of_property {p : Char → Bool} (hnone : ∀ n ∈ blankCodes, p (Char.ofNat n) = false)
    (h : p c = true) : isBlank c = false := by
  by_contra hblank
  have hcode := hnone _ (toNat_mem_blankCodes (Bool.of_not_eq_false hblank))
  rw [Char.ofNat_toNat, h] at hcode
  cases hcode

end Text

/-- Whether a token may begin with `c`. -/
def startsToken (c : Char) : Bool :=
  c = '"' || c = '\x27' || Text.isAsciiDigit c || c = '.' || startsName c ||
    !(Symbol.startingWith c).isEmpty

theorem startsToken_of_scanToken {s : Scanned Token} (h : scanToken c rest = .ok s) :
    startsToken c = true := by
  unfold scanToken at h
  split at h
  case isTrue hquote => simp_all [startsToken]
  split at h
  case isTrue hdigit => simp_all [startsToken]; grind
  split at h
  case isTrue hname => simp [startsToken, hname]
  split at h
  case h_1 found =>
    obtain ⟨symbol, hfind, -⟩ := Option.map_eq_some_iff.1 found
    have hmem := List.mem_of_find?_eq_some hfind
    have hne : Symbol.startingWith c ≠ [] := List.ne_nil_of_mem hmem
    simp [startsToken, hne]
  case h_2 => cases h

/-- No token begins with a blank `c`. -/
theorem isBlank_of_scanToken {s : Scanned Token} (h : scanToken c rest = .ok s) :
    Text.isBlank c = false :=
  Text.isBlank_of_property (p := startsToken) (by decide +kernel) (startsToken_of_scanToken h)

/-! ## Read at their places -/

/-- The characters of `l` stand at its place in `source`, and the scanner reads it there. -/
def Lexeme.ReadIn (source : List Char) (l : Lexeme) : Prop :=
  ∃ before c rest after, source = before ++ c :: rest ∧ l.loc = .past before ∧
    c :: rest = l.text ++ after ∧ l.text ≠ [] ∧ scanToken c rest = .ok ⟨l.token, l.text, after⟩

/-- The lexemes `ls` of a `source` that are not layout are read at their places, which increase. -/
structure WellPlaced (source : List Char) (ls : List Lexeme) : Prop where
  read : ∀ l ∈ ls, l.token.isLayout = false → l.ReadIn source
  increasing : (ls.filter (!·.token.isLayout)).Pairwise (·.loc.Precedes ·.loc)

theorem LexState.finish_isLayout {st : LexState} : ∀ l ∈ st.finish, l.token.isLayout = true := by
  rw [st.finish_eq]
  simp only [List.mem_append, List.mem_map, List.mem_singleton]
  rintro l (⟨t, ht, rfl⟩ | rfl)
  · rcases st.endTokens_cases t ht with rfl | rfl <;> rfl
  · rfl

theorem Location.past_append (before text : List Char) :
    past (before ++ text) = (past before).after text := by
  rw [← start_after, ← start_after, after_append]

/-- The `text` that is skipped goes on the characters `before`. -/
theorem LexState.skip_loc {st : LexState} {before : List Char} (h : st.loc = .past before)
    (text : List Char) : (st.skip text).loc = .past (before ++ text) := by
  rw [Location.past_append, ← h]
  rfl

/-- The lexemes `ls` of a text that starts after `before` in `source` are read in it. -/
theorem Lexed.readIn {st : LexState} (h : Lexed tabStop fresh st cs ls) {before : List Char}
    (hloc : st.loc = .past before) (hsource : source = before ++ cs) :
    ∀ l ∈ ls, l.token.isLayout = false → l.ReadIn source := by
  -- Along the rules, with all characters before: what is skipped or read is added to `before`.
  induction h generalizing before with
  | bareEnd margin =>
    intro l hl hlayout
    rw [LexState.finish_isLayout l hl] at hlayout
    cases hlayout
  | @bareLine _ _ _ rest _ c _ margin bare more ih =>
    rw [Scanned.split (Indent.scan_all ..) margin, ← restOfLine_all (c :: rest), Scanned.all,
      ← List.append_assoc, ← List.append_assoc] at hsource
    exact ih (LexState.skip_loc (LexState.skip_loc hloc _) _) hsource
  | margin margin bare entered more ih =>
    rw [Scanned.split (Indent.scan_all ..) margin, ← List.append_assoc] at hsource
    intro l hl hlayout
    rcases List.mem_append.1 hl with hl | hl
    · obtain ⟨t, ht, rfl⟩ := List.mem_map.1 hl
      rcases Indent.enter_cases entered t ht with rfl | rfl <;> cases hlayout
    · exact ih (LexState.skip_loc hloc _) hsource l hl hlayout
  | finished gap =>
    intro l hl hlayout
    rw [LexState.finish_isLayout l hl] at hlayout
    cases hlayout
  | @lineEnd _ _ blanks rest _ gap outside more ih =>
    rw [Scanned.split (skipBlanks_all ..) gap, ← List.append_assoc, List.append_cons] at hsource
    intro l hl hlayout
    rcases List.mem_cons.1 hl with rfl | hl
    · cases hlayout
    · exact ih (LexState.skip_loc (LexState.skip_loc hloc _) _) hsource l hl hlayout
  | joined gap inside more ih =>
    rw [Scanned.split (skipBlanks_all ..) gap, ← List.append_assoc, List.append_cons] at hsource
    exact ih (LexState.skip_loc (LexState.skip_loc hloc _) _) hsource
  | @token _ _ blanks rest c s _ gap visible scanned more ih =>
    rw [Scanned.split (skipBlanks_all ..) gap, ← List.append_assoc] at hsource
    have hplace := LexState.skip_loc hloc blanks
    intro l hl hlayout
    rcases List.mem_cons.1 hl with rfl | hl
    · exact ⟨_, c, rest, s.rest, hsource, hplace, (scanToken_all scanned).symm,
        scanToken_text_ne_nil scanned, scanned⟩
    · rw [← scanToken_all scanned, Scanned.all, ← List.append_assoc] at hsource
      exact ih (LexState.skip_loc hplace _) hsource l hl hlayout

/-- The places of lexemes are reached from `loc` by reading. -/
theorem Laid.reached {loc : Location} (h : Laid loc cs ls) :
    ∀ l ∈ ls, ∃ passed, l.loc = loc.after passed := by
  induction h with
  | done => exact nofun
  | @next loc gap text rest token ls more ih =>
    intro l hl
    rcases List.mem_cons.1 hl with rfl | hl
    · exact ⟨gap, rfl⟩
    · obtain ⟨passed, hpassed⟩ := ih l hl
      refine ⟨gap ++ (text ++ passed), ?_⟩
      rw [Location.after_append, Location.after_append, hpassed]

/-- A lexeme that takes characters comes before those that stand after it in `ls`. -/
theorem Laid.increasing {loc : Location} (h : Laid loc cs ls) :
    ls.Pairwise fun a b => a.text ≠ [] → a.loc.Precedes b.loc := by
  induction h with
  | done => exact .nil
  | @next loc gap text rest token ls more ih =>
    refine .cons (fun b hb htext => ?_) ih
    obtain ⟨passed, hpassed⟩ := more.reached b hb
    rw [hpassed, ← Location.after_append]
    exact Location.precedes_after _ (List.append_ne_nil_of_left_ne_nil htext passed)

/-- The lexemes of a `source` are read at their places, which increase. -/
theorem lexemes_wellPlaced (h : lexemesWith tabStop source = .ok ls) : WellPlaced source ls := by
  have hstart : LexState.start.loc = .past [] := rfl
  have hread : ∀ l ∈ ls, l.token.isLayout = false → l.ReadIn source :=
    (lexed_of_ok h).readIn hstart rfl
  refine ⟨hread, ((lexemes_laid h).increasing.filter _).imp_of_mem fun {a b} ha _ hab => ?_⟩
  obtain ⟨hmem, hlayout⟩ := List.mem_filter.1 ha
  obtain ⟨_, _, _, _, -, -, -, htext, -⟩ := hread a hmem (by simpa using hlayout)
  exact hab htext

end Stepper
