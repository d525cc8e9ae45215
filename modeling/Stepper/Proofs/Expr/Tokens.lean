import Mathlib.Data.List.Basic
import Stepper.Expr
import Stepper.Token

/-!
# Expressions as tokens

An expression is written with parentheses around an operand only where the operand binds less
tightly than its place asks for.

* `Expr.precedence`: how tightly the outermost operator of an expression binds.
* `Expr.tokens`, `Expr.tokensAt`: the tokens of an expression, and those of an operand.
* `Expr.operands`: the parts of an expression, each with the precedence that its place asks for.
* `Expr.WellFormed`: the expressions that can be written: a comparison has a link, and a call names
  no argument twice.
* `Expr.height`, `Expr.nesting`: the nodes on the longest way from the root to a leaf, and these
  together with the parentheses on the way.
* `Expr.unplaced`: an expression without its locations.
-/

namespace Stepper

/-! ## Operators -/

/-- How tightly the operator binds: `5` for sums, `6` for products, `8` for powers. -/
def ArithOp.precedence : ArithOp → Nat
  | add | sub => 5
  | mul | div | floorDiv | mod => 6
  | pow => 8

/-- What a left operand must bind like: a power groups to the right, the others to the left, so `**`
asks for more than its own precedence. -/
def ArithOp.leftPrecedence : ArithOp → Nat
  | pow => 9
  | op => op.precedence

/-- What a right operand must bind like. An exponent may carry a sign, so `**` asks for `7` only. -/
def ArithOp.rightPrecedence : ArithOp → Nat
  | pow => 7
  | op => op.precedence + 1

/-- The symbol of an operator. -/
def ArithOp.symbol : ArithOp → Symbol
  | add => .plus
  | sub => .minus
  | mul => .star
  | div => .slash
  | floorDiv => .slashSlash
  | mod => .percent
  | pow => .starStar

/-- How tightly the operator binds: `1` for `or`, `2` for `and`. -/
def LogicOp.precedence : LogicOp → Nat
  | or => 1
  | and => 2

/-- The word of an operator. -/
def LogicOp.keyword : LogicOp → Keyword
  | or => .orWord
  | and => .andWord

/-- The tokens of a comparison; `not in` and `is not` have two. -/
def CompareOp.tokens : CompareOp → List Token
  | eq => [.symbol .equalEqual]
  | ne => [.symbol .notEqual]
  | lt => [.symbol .less]
  | le => [.symbol .lessEqual]
  | gt => [.symbol .greater]
  | ge => [.symbol .greaterEqual]
  | isIn => [.keyword .inWord]
  | notIn => [.keyword .notWord, .keyword .inWord]
  | same => [.keyword .isWord]
  | notSame => [.keyword .isWord, .keyword .notWord]

/-- How tightly the operator binds: `3` for `not`, `7` for the signs. -/
def UnaryOp.precedence : UnaryOp → Nat
  | not => 3
  | neg | pos => 7

/-- The token of an operator. -/
def UnaryOp.token : UnaryOp → Token
  | neg => .symbol .minus
  | pos => .symbol .plus
  | not => .keyword .notWord

namespace Expr

/-- How tightly the outermost operator binds, from `1` for `or` to `10` for what has none.
Comparisons stand at `4`, and calls, subscripts and attributes at `9`. -/
def precedence : Expr → Nat
  | logic op .. => op.precedence
  | unary op .. => op.precedence
  | compare .. => 4
  | arith op .. => op.precedence
  | call .. | index .. | member .. => 9
  | _ => 10

/-! ## Tokens -/

/-- The tokens `ts` of an operand, in parentheses if it binds less tightly than `least`. -/
def enclosed (least : Nat) (e : Expr) (ts : List Token) : List Token :=
  if e.precedence < least then
    .symbol .leftParen :: (ts ++ [.symbol .rightParen])
  else
    ts

/-- Tokens of several `parts` with commas between them. -/
def commas (parts : List (List Token)) : List Token :=
  List.intercalate [.symbol .comma] parts

mutual

/-- The tokens of an expression, with parentheses where an operand binds less tightly than its place
asks for, and nowhere else. -/
def tokens : Expr → List Token
  | int n _ => [.int n]
  | float x _ => [.float x]
  | str s _ => [.str s]
  | bool b _ => [.keyword (if b then .trueWord else .falseWord)]
  | none _ => [.keyword .noneWord]
  | name x _ => [.name x]
  | list items _ =>
    .symbol .leftBracket :: (commas (itemTokens items) ++ [.symbol .rightBracket])
  | dict entries _ =>
    .symbol .leftBrace :: (commas (entryTokens entries) ++ [.symbol .rightBrace])
  | arith op left right _ =>
    enclosed op.leftPrecedence left (tokens left) ++
      .symbol op.symbol :: enclosed op.rightPrecedence right (tokens right)
  | logic op left right _ =>
    enclosed op.precedence left (tokens left) ++
      .keyword op.keyword :: enclosed (op.precedence + 1) right (tokens right)
  | compare first rest _ => enclosed 5 first (tokens first) ++ linkTokens rest
  | unary op operand _ => op.token :: enclosed op.precedence operand (tokens operand)
  | call callee args keywords _ =>
    enclosed 9 callee (tokens callee) ++ .symbol .leftParen ::
      (commas (itemTokens args ++ keywordTokens keywords) ++ [.symbol .rightParen])
  | index container key _ =>
    enclosed 9 container (tokens container) ++
      .symbol .leftBracket :: (tokens key ++ [.symbol .rightBracket])
  | member receiver x _ => enclosed 9 receiver (tokens receiver) ++ [.symbol .dot, .name x]

/-- The tokens of each item. -/
def itemTokens : List Expr → List (List Token)
  | [] => []
  | e :: rest => tokens e :: itemTokens rest

/-- The tokens of each entry of a dict display. -/
def entryTokens : List (Expr × Expr) → List (List Token)
  | [] => []
  | (key, value) :: rest => (tokens key ++ .symbol .colon :: tokens value) :: entryTokens rest

/-- The tokens of each argument by name. -/
def keywordTokens : List (String × Expr) → List (List Token)
  | [] => []
  | (x, e) :: rest => (.name x :: .symbol .equal :: tokens e) :: keywordTokens rest

/-- The tokens of the links of a comparison. -/
def linkTokens : List (CompareOp × Expr) → List Token
  | [] => []
  | (op, e) :: rest => op.tokens ++ enclosed 5 e (tokens e) ++ linkTokens rest

end

/-- The tokens of `e` at a place that asks for the precedence `least`. -/
def tokensAt (least : Nat) (e : Expr) : List Token :=
  e.enclosed least e.tokens

theorem itemTokens_eq_map (items : List Expr) : itemTokens items = items.map tokens := by
  induction items <;> simp [itemTokens, *]

theorem entryTokens_eq_map (entries : List (Expr × Expr)) :
    entryTokens entries = entries.map fun entry =>
      entry.1.tokens ++ .symbol .colon :: entry.2.tokens := by
  induction entries <;> simp [entryTokens, *]

theorem keywordTokens_eq_map (keywords : List (String × Expr)) :
    keywordTokens keywords = keywords.map fun keyword =>
      .name keyword.1 :: .symbol .equal :: keyword.2.tokens := by
  induction keywords <;> simp [keywordTokens, *]

theorem tokensAt_of_le {least : Nat} {e : Expr} (h : least ≤ e.precedence) :
    e.tokensAt least = e.tokens :=
  if_neg (Nat.not_lt.2 h)

theorem tokensAt_of_lt {least : Nat} {e : Expr} (h : e.precedence < least) :
    e.tokensAt least = .symbol .leftParen :: (e.tokens ++ [.symbol .rightParen]) :=
  if_pos h

theorem one_le_precedence (e : Expr) : 1 ≤ e.precedence := by
  unfold precedence
  split
  · rename_i op _ _ _; cases op <;> decide
  · rename_i op _ _; cases op <;> decide
  · decide
  · rename_i op _ _ _; cases op <;> decide
  all_goals decide

theorem precedence_le (e : Expr) : e.precedence ≤ 10 := by
  unfold precedence
  split
  · rename_i op _ _ _; cases op <;> decide
  · rename_i op _ _; cases op <;> decide
  · decide
  · rename_i op _ _ _; cases op <;> decide
  all_goals decide

theorem tokensAt_one (e : Expr) : e.tokensAt 1 = e.tokens :=
  tokensAt_of_le e.one_le_precedence

/-! ## Parts -/

/-- The parts of an expression, each with the precedence that its place asks for. -/
def operands : Expr → List (Nat × Expr)
  | int .. | float .. | str .. | bool .. | none .. | name .. => []
  | list items _ => items.map (1, ·)
  | dict entries _ => entries.map (1, ·.1) ++ entries.map (1, ·.2)
  | arith op left right _ => [(op.leftPrecedence, left), (op.rightPrecedence, right)]
  | logic op left right _ => [(op.precedence, left), (op.precedence + 1, right)]
  | compare first rest _ => (5, first) :: rest.map (5, ·.2)
  | unary op operand _ => [(op.precedence, operand)]
  | call callee args keywords _ => (9, callee) :: (args.map (1, ·) ++ keywords.map (1, ·.2))
  | index container key _ => [(9, container), (1, key)]
  | member receiver _ _ => [(9, receiver)]

theorem sizeOf_operand {e : Expr} {part : Nat × Expr} (h : part ∈ e.operands) :
    sizeOf part.2 < sizeOf e := by
  have hmem {α : Type} [SizeOf α] {a : α} {as : List α} (ha : a ∈ as) : sizeOf a < sizeOf as :=
    List.sizeOf_lt_of_mem ha
  have hfst (entry : Expr × Expr) : sizeOf entry.1 < sizeOf entry := by
    cases entry; simp +arith
  have hsnd {α : Type} [SizeOf α] (entry : α × Expr) : sizeOf entry.2 < sizeOf entry := by
    cases entry; simp +arith
  cases e <;> simp only [operands, List.mem_cons, List.mem_append, List.mem_map,
    List.not_mem_nil, or_false] at h
  case list items loc =>
    obtain ⟨e, he, rfl⟩ := h
    have := hmem he
    simp only [list.sizeOf_spec]
    omega
  case dict entries loc =>
    simp only [dict.sizeOf_spec]
    obtain ⟨entry, he, rfl⟩ | ⟨entry, he, rfl⟩ := h
    · have := hmem he
      have := hfst entry
      dsimp only
      omega
    · have := hmem he
      have := hsnd entry
      dsimp only
      omega
  case compare first rest loc =>
    simp only [compare.sizeOf_spec]
    obtain rfl | ⟨link, hl, rfl⟩ := h
    · dsimp only
      omega
    · have := hmem hl
      have := hsnd link
      dsimp only
      omega
  case call callee args keywords loc =>
    simp only [call.sizeOf_spec]
    obtain rfl | ⟨e, he, rfl⟩ | ⟨keyword, hk, rfl⟩ := h
    · dsimp only
      omega
    · have := hmem he
      dsimp only
      omega
    · have := hmem hk
      have := hsnd keyword
      dsimp only
      omega
  case arith | logic | index =>
    obtain rfl | rfl := h <;> simp +arith
  case unary | member =>
    subst h
    simp +arith

/-- What an expression must be like at its root to be written: see `WellFormed`. -/
def Proper : Expr → Prop
  | compare _ rest _ => rest ≠ []
  | call _ _ keywords _ => (keywords.map (·.1)).Nodup
  | _ => True

/-- An expression that can be written: a comparison has at least one link, and the names of keyword
arguments are distinct. -/
inductive WellFormed : Expr → Prop
  | intro {e : Expr} : e.Proper → (∀ part ∈ e.operands, part.2.WellFormed) → WellFormed e

/-- An expression `e` without operands, such as a name or a number. -/
theorem WellFormed.leaf {e : Expr} (h : e.Proper) (hleaf : e.operands = []) : e.WellFormed :=
  .intro h (by simp [hleaf])

/-! ## Height -/

/-- The largest of the numbers `ns`; `0` if there are none. -/
def highest (ns : List Nat) : Nat :=
  ns.foldr max 0

theorem highest_le {ns : List Nat} {m : Nat} : highest ns ≤ m ↔ ∀ n ∈ ns, n ≤ m := by
  induction ns with
  | nil => simp [highest]
  | cons n ns ih =>
    have h : highest (n :: ns) = max n (highest ns) := rfl
    rw [h, Nat.max_le, ih]
    simp

/-- How many nodes are on the longest way from the root of `e` to a leaf. -/
def height (e : Expr) : Nat :=
  highest (e.operands.attach.map fun part => part.1.2.height) + 1
termination_by sizeOf e
decreasing_by exact sizeOf_operand part.2

/-- How many nodes and parentheses are on the longest way from the root of `e` to a leaf. -/
def nesting (e : Expr) : Nat :=
  highest (e.operands.attach.map fun part =>
    part.1.2.nesting + if part.1.2.precedence < part.1.1 then 1 else 0) + 1
termination_by sizeOf e
decreasing_by exact sizeOf_operand part.2

/-- The nesting of `e` at a place that asks for the precedence `least`. -/
def nestingAt (least : Nat) (e : Expr) : Nat :=
  e.nesting + if e.precedence < least then 1 else 0

theorem height_le {e : Expr} {n : Nat} :
    e.height ≤ n + 1 ↔ ∀ part ∈ e.operands, part.2.height ≤ n := by
  rw [height, Nat.add_le_add_iff_right, highest_le]
  simp only [List.forall_mem_map, List.mem_attach, forall_const, Subtype.forall]

theorem nesting_le {e : Expr} {n : Nat} :
    e.nesting ≤ n + 1 ↔ ∀ part ∈ e.operands, part.2.nestingAt part.1 ≤ n := by
  rw [nesting, Nat.add_le_add_iff_right, highest_le]
  simp only [List.forall_mem_map, List.mem_attach, forall_const, Subtype.forall, nestingAt]

theorem height_leaf {e : Expr} (h : e.operands = []) : e.height ≤ 1 :=
  height_le.2 (by simp [h])

theorem nesting_leaf {e : Expr} (h : e.operands = []) : e.nesting ≤ 1 :=
  nesting_le.2 (by simp [h])

theorem height_pos (e : Expr) : 0 < e.height := by
  rw [height]
  exact Nat.succ_pos _

theorem nesting_pos (e : Expr) : 0 < e.nesting := by
  rw [nesting]
  exact Nat.succ_pos _

theorem height_operand {e : Expr} {part : Nat × Expr} (h : part ∈ e.operands) :
    part.2.height < e.height := by
  obtain ⟨n, hn⟩ := Nat.exists_eq_add_of_lt e.height_pos
  rw [Nat.zero_add] at hn
  have := height_le.1 (Nat.le_of_eq hn) part h
  omega

theorem nestingAt_operand {e : Expr} {part : Nat × Expr} (h : part ∈ e.operands) :
    part.2.nestingAt part.1 < e.nesting := by
  obtain ⟨n, hn⟩ := Nat.exists_eq_add_of_lt e.nesting_pos
  rw [Nat.zero_add] at hn
  have := nesting_le.1 (Nat.le_of_eq hn) part h
  omega

/-- Every node of `e` is in at most one pair of parentheses, and the root in none. -/
theorem nesting_lt (e : Expr) : e.nesting < 2 * e.height := by
  obtain ⟨n, hn⟩ := Nat.exists_eq_add_of_lt e.height_pos
  rw [Nat.zero_add] at hn
  have hparts : e.nesting ≤ 2 * n + 1 := by
    refine nesting_le.2 fun part hpart => ?_
    have := part.2.nesting_lt
    have := height_operand hpart
    unfold nestingAt
    split <;> omega
  omega
termination_by sizeOf e
decreasing_by exact sizeOf_operand hpart

theorem nestingAt_of_le {least : Nat} {e : Expr} (h : least ≤ e.precedence) :
    e.nestingAt least = e.nesting :=
  congrArg (e.nesting + ·) (if_neg (Nat.not_lt.2 h))

theorem nestingAt_one (e : Expr) : e.nestingAt 1 = e.nesting :=
  nestingAt_of_le e.one_le_precedence

/-! ## Without locations -/

mutual

/-- The expression with all its locations forgotten. -/
def unplaced : Expr → Expr
  | int n _ => int n .start
  | float x _ => float x .start
  | str s _ => str s .start
  | bool b _ => bool b .start
  | none _ => none .start
  | name x _ => name x .start
  | list items _ => list (unplacedItems items) .start
  | dict entries _ => dict (unplacedEntries entries) .start
  | arith op left right _ => arith op (unplaced left) (unplaced right) .start
  | logic op left right _ => logic op (unplaced left) (unplaced right) .start
  | compare first rest _ => compare (unplaced first) (unplacedLinks rest) .start
  | unary op operand _ => unary op (unplaced operand) .start
  | call callee args keywords _ =>
    call (unplaced callee) (unplacedItems args) (unplacedKeywords keywords) .start
  | index container key _ => index (unplaced container) (unplaced key) .start
  | member receiver x _ => member (unplaced receiver) x .start

/-- Expressions with all their locations forgotten. -/
def unplacedItems : List Expr → List Expr
  | [] => []
  | e :: rest => unplaced e :: unplacedItems rest

/-- Entries with all their locations forgotten. -/
def unplacedEntries : List (Expr × Expr) → List (Expr × Expr)
  | [] => []
  | (key, value) :: rest => (unplaced key, unplaced value) :: unplacedEntries rest

/-- Links of a comparison with all their locations forgotten. -/
def unplacedLinks : List (CompareOp × Expr) → List (CompareOp × Expr)
  | [] => []
  | (op, e) :: rest => (op, unplaced e) :: unplacedLinks rest

/-- Arguments by name with all their locations forgotten. -/
def unplacedKeywords : List (String × Expr) → List (String × Expr)
  | [] => []
  | (x, e) :: rest => (x, unplaced e) :: unplacedKeywords rest

end

theorem unplacedItems_eq_map (items : List Expr) : unplacedItems items = items.map unplaced := by
  induction items <;> simp [unplacedItems, *]

theorem unplacedEntries_eq_map (entries : List (Expr × Expr)) :
    unplacedEntries entries = entries.map fun entry => (entry.1.unplaced, entry.2.unplaced) := by
  induction entries <;> simp [unplacedEntries, *]

theorem unplacedLinks_eq_map (links : List (CompareOp × Expr)) :
    unplacedLinks links = links.map fun link => (link.1, link.2.unplaced) := by
  induction links <;> simp [unplacedLinks, *]

end Expr

end Stepper
