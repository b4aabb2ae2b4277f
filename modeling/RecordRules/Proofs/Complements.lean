import RecordRules.Proofs.Outcomes
import RecordRules.Proofs.Results

/-!
# The complement of a rule

Exchange AND and OR in a rule and turn each of its comparators into the opposite one: the rule then
says the opposite of every record. Errors do not change by it. They come from the same condition.
-/

namespace RecordRules

/-! ## Opposite parts -/

namespace Comparator

/-- The comparator that holds just where this one does not. -/
def complement : Comparator → Comparator
  | gt => lteq
  | lt => gteq
  | eq => neq
  | lteq => gt
  | gteq => lt
  | neq => eq

theorem complement_complement (k : Comparator) : k.complement.complement = k := by
  cases k <;> rfl

theorem holds_complement (k : Comparator) (o : Ordering) : k.complement.holds o = !k.holds o := by
  cases k <;> cases o <;> rfl

end Comparator

namespace Combinator

def dual : Combinator → Combinator
  | and => or
  | or => and

/-- De Morgan's laws. -/
theorem apply_dual (k : Combinator) (a b : Bool) : k.dual.apply (!a) (!b) = !k.apply a b := by
  cases k with
  | and => exact (Bool.not_and a b).symm
  | or => exact (Bool.not_or a b).symm

end Combinator

namespace EvalError

/-- The error of the opposite condition: only the comparator that it names is another. -/
def complement : EvalError → EvalError
  | fieldNotFound field => fieldNotFound field
  | typeMismatch field k found expected => typeMismatch field k.complement found expected

theorem complement_complement (e : EvalError) : e.complement.complement = e := by
  cases e with
  | fieldNotFound field => rfl
  | typeMismatch field k found expected =>
    rw [complement, complement, k.complement_complement]

theorem complement_inj {e e' : EvalError} : e.complement = e'.complement ↔ e = e' :=
  (Function.LeftInverse.injective complement_complement).eq_iff

end EvalError

/-- The opposite result, or the error of the opposite condition. -/
def opposite : Except EvalError Bool → Except EvalError Bool
  | .ok b => .ok !b
  | .error e => .error e.complement

theorem opposite_eq_ok_iff {r : Except EvalError Bool} {b : Bool} :
    opposite r = .ok (!b) ↔ r = .ok b := by
  cases r <;> simp [opposite]

theorem opposite_eq_error_iff {r : Except EvalError Bool} {e : EvalError} :
    opposite r = .error e.complement ↔ r = .error e := by
  cases r <;> simp [opposite, EvalError.complement_inj]

/-! ## Conditions -/

namespace Condition

def complement (c : Condition) : Condition := { c with comparator := c.comparator.complement }

theorem evaluate_opposite (c : Condition) (value : Json) :
    c.complement.evaluate value = opposite (c.evaluate value) := by
  -- Both conditions order the value against the same literal.
  have literal : c.complement.literal = c.literal := rfl
  rw [evaluate, evaluate, literal]
  cases c.literal.compare? value with
  | none => rfl
  | some o => exact congrArg Except.ok (c.comparator.holds_complement o)

theorem evaluateOn_opposite (record : Json) (c : Condition) :
    c.complement.evaluateOn record = opposite (c.evaluateOn record) := by
  have field : c.complement.field = c.field := rfl
  rw [evaluateOn, evaluateOn, field]
  cases record.field? c.field with
  | none => rfl
  | some value => exact c.evaluate_opposite value

end Condition

/-! ## Trees -/

namespace Tree

def complement : Tree → Tree
  | operand c => operand c.complement
  | operator kind left right => operator kind.dual left.complement right.complement

theorem conditions_complement (t : Tree) :
    t.complement.conditions = t.conditions.map Condition.complement := by
  induction t with
  | operand c => rfl
  | operator kind left right ihl ihr =>
    rw [complement, conditions, conditions, ihl, ihr, List.map_append]

theorem evaluate_opposite (record : Json) (t : Tree) :
    t.complement.evaluate record = opposite (t.evaluate record) := by
  induction t with
  | operand c => exact c.evaluateOn_opposite record
  | operator kind left right ihl ihr =>
    rw [complement, evaluate_operator, evaluate_operator, ihl, ihr]
    cases left.evaluate record with
    | error e => rfl
    | ok l =>
      cases right.evaluate record with
      | error e => rfl
      | ok r => exact congrArg Except.ok (kind.apply_dual l r)

/-- A rule has an error just if its conditions one after the other have it. -/
theorem evaluate_cases (record : Json) (t : Tree) :
    (∃ e, t.evaluate record = .error e ∧ t.conditions.mapM (·.evaluateOn record) = .error e) ∨
      ∃ b bs, t.evaluate record = .ok b ∧ t.conditions.mapM (·.evaluateOn record) = .ok bs := by
  induction t with
  | operand c =>
    rw [evaluate, conditions, List.mapM_cons, List.mapM_nil]
    cases c.evaluateOn record with
    | error e => exact .inl ⟨e, rfl, rfl⟩
    | ok b => exact .inr ⟨b, [b], rfl, rfl⟩
  | operator kind left right ihl ihr =>
    rw [evaluate_operator, conditions, List.mapM_append]
    rcases ihl with ⟨e, hl, hls⟩ | ⟨l, ls, hl, hls⟩
    · exact .inl ⟨e, by rw [hl]; rfl, by rw [hls]; rfl⟩
    · rcases ihr with ⟨e, hr, hrs⟩ | ⟨r, rs, hr, hrs⟩
      · exact .inl ⟨e, by rw [hl, hr]; rfl, by rw [hls, hrs]; rfl⟩
      · exact .inr ⟨kind.apply l r, ls ++ rs, by rw [hl, hr]; rfl, by rw [hls, hrs]; rfl⟩

/-- The condition in place `i` is the first one with an error, and has the error `e`. -/
def FailsAt (record : Json) (t : Tree) (i : Nat) (e : EvalError) : Prop :=
  ∃ before c after, t.conditions = before ++ c :: after ∧ before.length = i ∧
    (∀ d ∈ before, ∃ b, d.evaluateOn record = .ok b) ∧ c.evaluateOn record = .error e

theorem evaluate_eq_error_iff {record : Json} {t : Tree} {e : EvalError} :
    t.evaluate record = .error e ↔ ∃ i, t.FailsAt record i e := by
  have row : t.evaluate record = .error e ↔
      t.conditions.mapM (·.evaluateOn record) = .error e := by
    rcases t.evaluate_cases record with ⟨e', h, hs⟩ | ⟨b, bs, h, hs⟩
    · simp [h, hs]
    · simp [h, hs]
  have passed {d : Condition} :
      (!(!(d.evaluateOn record).isOk)) = true ↔ ∃ b, d.evaluateOn record = .ok b := by
    cases d.evaluateOn record <;> simp [Except.isOk, Except.toBool]
  rw [row, mapM_eq_error_iff]
  constructor
  · rintro ⟨c, found, failed⟩
    obtain ⟨-, before, after, split, earlier⟩ := List.find?_eq_some_iff_append.1 found
    exact ⟨before.length, before, c, after, split, rfl, fun d hd => passed.1 (earlier d hd), failed⟩
  · rintro ⟨i, before, c, after, split, -, earlier, failed⟩
    have first := fun d hd => passed.2 (earlier d hd)
    have found := not_isOk_iff.2 ⟨e, failed⟩
    exact ⟨c, List.find?_eq_some_iff_append.2 ⟨found, before, after, split, first⟩, failed⟩

theorem FailsAt.complement {record : Json} {t : Tree} {i : Nat} {e : EvalError}
    (h : t.FailsAt record i e) : t.complement.FailsAt record i e.complement := by
  obtain ⟨before, c, after, split, length, earlier, failed⟩ := h
  refine ⟨before.map .complement, c.complement, after.map .complement, ?_, ?_, ?_, ?_⟩
  · rw [conditions_complement, split, List.map_append, List.map_cons]
  · rw [List.length_map, length]
  · intro d' hd'
    obtain ⟨d, hd, rfl⟩ := List.mem_map.1 hd'
    obtain ⟨b, passed⟩ := earlier d hd
    exact ⟨!b, by rw [d.evaluateOn_opposite, passed, opposite]⟩
  · rw [c.evaluateOn_opposite, failed, opposite]

/-- **Complements.** The complement of a rule says the opposite of a record where the rule says
something, and else has the error of the same condition, which names the opposite comparator. -/
theorem evaluate_complement (record : Json) (t : Tree) :
    (∀ b, t.evaluate record = .ok b ↔ t.complement.evaluate record = .ok (!b)) ∧
    (∀ e, t.evaluate record = .error e ↔ t.complement.evaluate record = .error e.complement) ∧
    ∀ e, t.evaluate record = .error e ↔
      ∃ i, t.FailsAt record i e ∧ t.complement.FailsAt record i e.complement := by
  refine ⟨fun b => ?_, fun e => ?_, fun e => ?_⟩
  · rw [evaluate_opposite, opposite_eq_ok_iff]
  · rw [evaluate_opposite, opposite_eq_error_iff]
  · rw [evaluate_eq_error_iff]
    exact exists_congr fun i => ⟨fun h => ⟨h, h.complement⟩, fun h => h.1⟩

end Tree

end RecordRules
