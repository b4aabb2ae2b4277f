import Mathlib.Data.List.Forall2
import RecordRules.Proofs.Parsing

/-!
# The tokens of a tree in order

A tree is read from left to right as a row of tokens without parentheses: of a leaf its field, its
comparator and a text of its literal, of an operator its combinator between the two sides. Main
statement: the tokens that the parser accepts are such a row of their tree, once the parentheses are
taken out, so nothing of them is lost, doubled or put elsewhere.
-/

namespace RecordRules

namespace Token.Kind

def isParen : Kind → Bool
  | openParen | closeParen => true
  | _ => false

def isComparator : Kind → Bool
  | comparator _ => true
  | _ => false

def isCombinator : Kind → Bool
  | combinator _ => true
  | _ => false

/-- A sign or a text of a condition. -/
def isOfCondition (kind : Kind) : Bool := !kind.isParen && !kind.isCombinator

end Token.Kind

open Token (Kind)

/-! ## Rows of a tree -/

/-- The three tokens of a condition, the last of which may be any text of the literal. -/
inductive Condition.Spells : Condition → List Kind → Prop
  | tokens {kind : Kind} {text : String} (name : String) (c : Comparator)
      (literal : Parser.IsLiteral kind text) :
      Spells ⟨name, c, .ofText text⟩ [.word name, .comparator c, kind]

inductive Tree.InOrder : Tree → List Kind → Prop
  | operand {c : Condition} {ks : List Kind} (leaf : c.Spells ks) : InOrder (.operand c) ks
  | operator {l r : Tree} {ks ls : List Kind} (kind : Combinator) (left : InOrder l ks)
      (right : InOrder r ls) : InOrder (.operator kind l r) (ks ++ .combinator kind :: ls)

theorem Condition.Spells.kinds {c : Condition} {ks : List Kind} (h : c.Spells ks) :
    (∀ k ∈ ks, k.isOfCondition) ∧ ks.countP Kind.isComparator = 1 := by
  cases h with
  | tokens name c literal =>
    cases literal <;>
      exact ⟨by simp [Kind.isOfCondition, Kind.isParen, Kind.isCombinator], rfl⟩

namespace Tree.InOrder

variable {t : Tree} {ks : List Kind}

theorem countP_isComparator (h : t.InOrder ks) : ks.countP Kind.isComparator = t.operandCount := by
  induction h with
  | operand leaf => exact leaf.kinds.2
  | operator kind left right ihl ihr =>
    have none : ¬ Kind.isComparator (.combinator kind) := Bool.false_ne_true
    rw [List.countP_append, List.countP_cons_of_neg none, ihl, ihr, operandCount]

theorem countP_isCombinator (h : t.InOrder ks) : ks.countP Kind.isCombinator = t.operatorCount := by
  induction h with
  | operand leaf =>
    refine List.countP_eq_zero.2 fun k hk => ?_
    have := leaf.kinds.1 k hk
    simp_all [Kind.isOfCondition]
  | @operator l r _ _ kind left right ihl ihr =>
    have one : Kind.isCombinator (.combinator kind) = true := rfl
    rw [List.countP_append, List.countP_cons_of_pos one, ihl, ihr, operatorCount, Nat.add_assoc]

/-- Without the combinators, what is left is one condition after the other. -/
theorem exists_leaves (h : t.InOrder ks) :
    ∃ leaves, List.Forall₂ Condition.Spells t.conditions leaves ∧
      leaves.flatten = ks.filter Kind.isOfCondition := by
  induction h with
  | @operand c ks leaf =>
    refine ⟨[ks], .cons leaf .nil, ?_⟩
    rw [List.filter_eq_self.2 leaf.kinds.1, List.flatten_singleton]
  | @operator l r ks ls kind left right ihl ihr =>
    obtain ⟨leaves, each, flat⟩ := ihl
    obtain ⟨leaves', each', flat'⟩ := ihr
    refine ⟨leaves ++ leaves', List.rel_append each each', ?_⟩
    have dropped : ¬ Kind.isOfCondition (.combinator kind) := Bool.false_ne_true
    rw [List.flatten_append, flat, flat', List.filter_append, List.filter_cons_of_neg dropped]

end Tree.InOrder

/-! ## Accepted tokens -/

theorem Parser.Derives.inOrder {part : Part} {ks : List Kind} {t : Tree} (h : Derives part ks t) :
    t.InOrder (ks.filter (!·.isParen)) := by
  induction h with
  | condition name c literal =>
    have leaf : Condition.Spells _ _ := .tokens name c literal
    have kept := List.filter_eq_self.2 fun k hk => (Bool.and_eq_true_iff.1 (leaf.kinds.1 k hk)).1
    rw [kept]
    exact .operand leaf
  | group inner ih => simpa [Kind.isParen] using ih
  | first only ih => exact ih
  | more kind left right ihl ihr =>
    rw [List.filter_append, List.filter_cons_of_pos rfl]
    exact .operator kind ihl ihr

/-- **In order.** The tokens of an accepted list without its parentheses are its tree in order. So
the comparators are as many as the leaves and the combinators as the operators, the conditions come
as they stand in the list, and a tree is no deeper than it has leaves. -/
theorem parse_in_order {limits : Limits} {ts : List Token} {t : Tree}
    (h : parse limits ts = .ok t) :
    t.InOrder ((ts.map (·.kind)).filter (!·.isParen)) ∧
      t.operandCount = ts.countP (·.kind.isComparator) ∧
      t.operatorCount = ts.countP (·.kind.isCombinator) ∧
      (∃ leaves, List.Forall₂ Condition.Spells t.conditions leaves ∧
        leaves.flatten = (ts.map (·.kind)).filter (·.isOfCondition)) ∧
      t.conditions.length = t.operandCount ∧ t.operandCount = t.operatorCount + 1 ∧
      t.depth ≤ t.operandCount := by
  have inOrder := (parse_eq_ok_iff_accepts.1 h).1.inOrder
  -- Parentheses are no comparators, no combinators and no part of a condition.
  have counted (p : Kind → Bool) (noParen : ∀ k, p k → !k.isParen) :
      ((ts.map (·.kind)).filter (!·.isParen)).countP p = ts.countP (p ·.kind) := by
    rw [List.countP_filter, List.countP_map]
    refine List.countP_congr fun x _ => ?_
    have := noParen x.kind
    simp_all
  refine ⟨inOrder, ?_, ?_, ?_, t.length_conditions, t.operandCount_eq, t.depth_le_operandCount⟩
  · rw [← inOrder.countP_isComparator, counted]
    intro k hk
    cases k <;> first | rfl | cases hk
  · rw [← inOrder.countP_isCombinator, counted]
    intro k hk
    cases k <;> first | rfl | cases hk
  · obtain ⟨leaves, each, flat⟩ := inOrder.exists_leaves
    refine ⟨leaves, each, flat.trans ?_⟩
    rw [List.filter_filter]
    refine List.filter_congr fun k _ => ?_
    cases k <;> rfl

/-- A group in front, and a literal in quotes. -/
theorem parse_in_order_group :
    let ts : List Token := [⟨.openParen, 0⟩, ⟨.word "age", 1⟩, ⟨.comparator .gt, 5⟩, ⟨.word "30", 7⟩,
      ⟨.combinator .or, 10⟩, ⟨.word "dept", 13⟩, ⟨.comparator .eq, 18⟩, ⟨.quoted "'it'", 20⟩,
      ⟨.closeParen, 24⟩, ⟨.combinator .and, 26⟩, ⟨.word "pay", 30⟩, ⟨.comparator .lt, 34⟩,
      ⟨.word "9", 36⟩]
    ∃ t, parse {} ts = .ok t ∧
      t.InOrder [.word "age", .comparator .gt, .word "30", .combinator .or, .word "dept",
        .comparator .eq, .quoted "'it'", .combinator .and, .word "pay", .comparator .lt,
        .word "9"] ∧ t.operandCount = 3 ∧ t.operatorCount = 2 := by
  intro ts
  have accepted : parse {} ts = .ok _ := rfl
  obtain ⟨inOrder, operands, operators, -⟩ := parse_in_order accepted
  exact ⟨_, accepted, inOrder, operands, operators⟩

end RecordRules
