import RecordRules.Tree

/-!
# What can be written and read back

No format has a form for a float that is not finite, and rule text has none for a string with both
kinds of quote. All else can be written, and a tree of such literals is equal to itself as a value.
-/

namespace RecordRules

namespace Literal

def IsFinite : Literal → Prop
  | float x => x.IsFinite
  | _ => True

instance (l : Literal) : Decidable l.IsFinite :=
  match l with
  | float x => inferInstanceAs (Decidable x.IsFinite)
  | integer _ | string _ => .isTrue trivial

/-- An integer, a finite float, or a string that does not hold both kinds of quote. -/
def IsWritable : Literal → Prop
  | integer _ => True
  | float x => x.IsFinite
  | string s => ¬ ('\'' ∈ s.toList ∧ '"' ∈ s.toList)

instance (l : Literal) : Decidable l.IsWritable :=
  match l with
  | integer _ => .isTrue trivial
  | float x => inferInstanceAs (Decidable x.IsFinite)
  | string s => inferInstanceAs (Decidable (¬ ('\'' ∈ s.toList ∧ '"' ∈ s.toList)))

/-- The check of the import refuses the strings that cannot be written. -/
theorem isWritable_iff {l : Literal} : l.IsWritable ↔ l.IsFinite ∧ l.mixesQuotes = false := by
  cases l with
  | integer n => simp [IsWritable, IsFinite, mixesQuotes]
  | float x => simp [IsWritable, IsFinite, mixesQuotes]
  | string s => simp [IsWritable, IsFinite, mixesQuotes]

theorem sameValue_self_of_ne_nan {l : Literal} (h : l ≠ float .nan) : l.sameValue l := by
  cases l with
  | integer n => simp [sameValue]
  | float x =>
    cases x with
    | nan => exact absurd rfl h
    | signed negative m => exact Binary64.sameNumber_signed_iff.2 rfl
  | string s => simp [sameValue]

theorem sameValue_self {l : Literal} (h : l.IsFinite) : l.sameValue l := by
  apply sameValue_self_of_ne_nan
  rintro rfl
  exact h

end Literal

namespace Tree

theorem forall_conditions_operator {p : Condition → Prop} {k : Combinator} {l r : Tree} :
    (∀ c ∈ (operator k l r).conditions, p c) ↔
      (∀ c ∈ l.conditions, p c) ∧ ∀ c ∈ r.conditions, p c := by
  simp [conditions, or_imp, forall_and]

/-- What fails of a condition fails on the left, or on the right alone. -/
theorem not_forall_conditions_operator {p : Condition → Prop} {k : Combinator} {l r : Tree}
    (h : ¬ ∀ c ∈ (operator k l r).conditions, p c) :
    (¬ ∀ c ∈ l.conditions, p c) ∨
      (∀ c ∈ l.conditions, p c) ∧ ¬ ∀ c ∈ r.conditions, p c := by
  rw [forall_conditions_operator] at h
  by_cases hl : ∀ c ∈ l.conditions, p c
  · exact .inr ⟨hl, fun hr => h ⟨hl, hr⟩⟩
  · exact .inl hl

def IsWritable (t : Tree) : Prop := ∀ c ∈ t.conditions, c.literal.IsWritable

instance (t : Tree) : Decidable t.IsWritable := inferInstanceAs (Decidable (∀ c ∈ _, _))

theorem isWritable_iff {t : Tree} : t.IsWritable ↔
    (∀ c ∈ t.conditions, c.literal.IsFinite) ∧
      ∀ c ∈ t.conditions, c.literal.mixesQuotes = false := by
  simp only [IsWritable, Literal.isWritable_iff, imp_and, forall_and]

theorem isWritable_operator {k : Combinator} {l r : Tree} :
    (operator k l r).IsWritable ↔ l.IsWritable ∧ r.IsWritable :=
  forall_conditions_operator

theorem sameTree_self_of_literals {t : Tree}
    (h : ∀ c ∈ t.conditions, c.literal.sameValue c.literal) : t.sameTree t := by
  induction t with
  | operand c =>
    have := h c (List.mem_singleton.2 rfl)
    simp [sameTree, Condition.sameCondition, this]
  | operator k l r ihl ihr =>
    obtain ⟨hl, hr⟩ := forall_conditions_operator.1 h
    simp [sameTree, ihl hl, ihr hr]

theorem sameTree_self {t : Tree} (h : t.IsWritable) : t.sameTree t :=
  sameTree_self_of_literals fun c hc => Literal.sameValue_self ((isWritable_iff.1 h).1 c hc)

end Tree

end RecordRules
