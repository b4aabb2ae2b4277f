import RecordRules.Combinator
import RecordRules.Comparator
import RecordRules.Literal

/-!
# Rule trees

A rule is a tree whose leaves are conditions on fields of a record and whose inner nodes join the
results of two rules.
-/

namespace RecordRules

/-- The comparison of a field with a literal. -/
structure Condition where
  field : String
  comparator : Comparator
  literal : Literal
  deriving DecidableEq

inductive Tree
  | operand (condition : Condition)
  | operator (kind : Combinator) (left right : Tree)
  deriving DecidableEq

namespace Condition

def text (c : Condition) : String :=
  c.field ++ " " ++ c.comparator.symbol ++ " " ++ c.literal.text

def sameCondition (c d : Condition) : Bool :=
  c.field == d.field && c.comparator == d.comparator && c.literal.sameValue d.literal

end Condition

namespace Tree

def operandCount : Tree → Nat
  | operand _ => 1
  | operator _ left right => left.operandCount + right.operandCount

def operatorCount : Tree → Nat
  | operand _ => 0
  | operator _ left right => left.operatorCount + right.operatorCount + 1

/-- The height of a tree; a leaf has height 1. -/
def depth : Tree → Nat
  | operand _ => 1
  | operator _ left right => max left.depth right.depth + 1

def conditions : Tree → List Condition
  | operand c => [c]
  | operator _ left right => left.conditions ++ right.conditions

/-- The rule text of a tree, each operator in parentheses. -/
def text : Tree → String
  | operand c => c.text
  | operator kind left right =>
    "(" ++ left.text ++ " " ++ kind.keyword ++ " " ++ right.text ++ ")"

/-- Equality with literals compared as values. -/
def sameTree : Tree → Tree → Bool
  | operand c, operand d => c.sameCondition d
  | operator k l r, operator k' l' r' => k == k' && l.sameTree l' && r.sameTree r'
  | _, _ => false

theorem operandCount_eq (t : Tree) : t.operandCount = t.operatorCount + 1 := by
  induction t with
  | operand _ => rfl
  | operator _ left right hl hr =>
    simp only [operandCount, operatorCount, hl, hr]
    omega

theorem length_conditions (t : Tree) : t.conditions.length = t.operandCount := by
  induction t with
  | operand _ => rfl
  | operator _ left right hl hr => simp [conditions, operandCount, hl, hr]

theorem depth_le_operandCount (t : Tree) : t.depth ≤ t.operandCount := by
  induction t with
  | operand _ => exact Nat.le_refl 1
  | operator _ left right hl hr =>
    have := left.operandCount_eq
    have := right.operandCount_eq
    simp only [depth, operandCount]
    omega

end Tree

end RecordRules
