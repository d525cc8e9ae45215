import Stepper.Expr.Parser
import Stepper.Proofs.Token.Lexed
import Stepper.Proofs.Parse.Reading

/-!
# Expressions begin where they are read

* `Parse.BeginsFrom`, `Parse.Begins`: a parser that yields something begins with a token that is not
  layout. Its first step shows that (`Begins.bind`).
* `Parse.begins_expression`: so it is with expressions.
-/

namespace Stepper

namespace Parse

/-- If the parser `x` yields something from `ls`, a token that is not layout comes first there. -/
def BeginsFrom (ls : List Lexeme) (x : Parse α) : Prop :=
  ∀ a rest, x ls = .ok (a, rest) → (ahead ls).token.isLayout = false

/-- What the parser `x` reads begins with a token that is not layout. -/
def Begins (x : Parse α) : Prop :=
  ∀ ls, BeginsFrom ls x

variable {x : Parse α} {f : α → Parse β} {ls : List Lexeme}

theorem BeginsFrom.bind (h : BeginsFrom ls x) : BeginsFrom ls (x >>= f) := by
  intro b rest hrun
  obtain ⟨a, mid, hfirst, -⟩ := ok_of_bind hrun
  exact h a mid hfirst

theorem Begins.bind (h : Begins x) : Begins (x >>= f) :=
  fun ls => (h ls).bind

theorem BeginsFrom.next {f : Lexeme → Parse β} (h : BeginsFrom ls (f (ahead ls))) :
    BeginsFrom ls (next >>= f) := h

theorem BeginsFrom.here {f : Location → Parse β} (h : BeginsFrom ls (f (ahead ls).loc)) :
    BeginsFrom ls (here >>= f) := h

theorem BeginsFrom.of_token {x : Parse α} (h : (ahead ls).token.isLayout = false) :
    BeginsFrom ls x :=
  fun _ _ _ => h

theorem beginsFrom_fail (fault : SyntaxFault) : BeginsFrom ls (fail fault : Parse α) :=
  nofun

/-- A parser that tries the keyword `k` first begins with it, or as it goes on without it. -/
theorem beginsFrom_acceptKeyword {k : Keyword} {f : Bool → Parse β} (h : BeginsFrom ls (f false)) :
    BeginsFrom ls (acceptKeyword k >>= f) := by
  cases htest : (ahead ls).token.isKeyword k with
  | true => exact .of_token (by rw [Token.isKeyword_iff.1 htest]; rfl)
  | false =>
    intro b rest hrun
    have hnot : acceptKeyword k ls = .ok (false, ls) := acceptIf_of_false htest
    rw [bind_of_ok hnot] at hrun
    exact h b rest hrun

theorem isLayout_of_sign? {t : Token} {op : UnaryOp} (h : sign? t = some op) :
    t.isLayout = false := by
  cases t <;> first | rfl | cases h

/-! ## The levels -/

variable (deeper : Levels) (room : Nat)

theorem begins_primary : Begins (primary deeper) := by
  refine fun ls => .next ?_
  dsimp only
  split
  case h_11 => exact beginsFrom_fail _
  all_goals
    rename_i h
    exact .of_token (by rw [h]; rfl)

theorem begins_power : Begins (power room deeper) :=
  (begins_primary deeper).bind.bind

theorem begins_signed : Begins (signed room deeper) := by
  refine fun ls => .next ?_
  split
  · rename_i h
    exact .of_token (isLayout_of_sign? h)
  · exact begins_power deeper room ls

theorem begins_comparison : Begins (comparison room deeper) :=
  (begins_signed deeper room).bind.bind.bind

theorem begins_negation : Begins (negation room deeper) :=
  fun ls => .here (beginsFrom_acceptKeyword (begins_comparison deeper room ls))

theorem begins_disjunction : Begins (disjunction room deeper) :=
  (begins_negation deeper room).bind.bind

theorem begins_expression : Begins expression :=
  begins_disjunction _ _

end Parse

end Stepper
