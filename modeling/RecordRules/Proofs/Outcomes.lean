import RecordRules.Proofs.MembersByKey
import RecordRules.Proofs.OrderedValues

/-!
# What a rule says of a record

Each condition has an outcome of its own on a record. A rule says what the first of its conditions
with an error says, wherever it stands in the tree; where there is none, a rule is the Boolean
expression that its tree shows.
-/

namespace RecordRules

/-! ## Values and literals that compare -/

/-- Numbers compare with numbers and strings with strings; what is not a number has no order. -/
def Literal.comparesWith : Literal → Json → Bool
  | integer _, .number _ => true
  | float x, .number _ => x ≠ .nan
  | string _, .string _ => true
  | _, _ => false

/-- The place of a number in the row of all numbers, in which both zeros have the place 0. -/
def Binary64.position : Binary64 → Int
  | nan => 0
  | signed negative m => if negative then -m.val else m.val

def Binary64.order (x y : Binary64) : Ordering := compare x.position y.position

/-- What the symbol of a comparator says of a value and a literal that compare: of whole numbers, of
the floats of other numbers, and of the code points of strings. -/
def Literal.relates (k : Comparator) : Literal → Json → Bool
  | integer m, .number (.integer n _ _) => k.Relation n m.toInt
  | integer m, .number (.float x _) => k.Relation x.position (Binary64.ofInt m.toInt).position
  | float x, .number n => k.Relation n.toBinary64.position x.position
  | string s, .string t => k.Relation (Text.codePoints t) (Text.codePoints s)
  | _, _ => false

theorem Binary64.compare?_eq {x y : Binary64} (hx : x ≠ nan) (hy : y ≠ nan) :
    x.compare? y = some (x.order y) := by
  cases x with
  | nan => exact absurd rfl hx
  | signed s m =>
    cases y with
    | nan => exact absurd rfl hy
    | signed t n => rfl

theorem Binary64.compare?_nan (x : Binary64) : x.compare? nan = none := by cases x <;> rfl

theorem Binary64.IsFinite.ne_nan {x : Binary64} (h : x.IsFinite) : x ≠ nan := by
  rintro rfl
  exact h

theorem Json.Number.toBinary64_ne_nan (n : Json.Number) : n.toBinary64 ≠ .nan := by
  cases n with
  | integer n low high => exact Binary64.noConfusion
  | float x finite => exact finite.ne_nan

theorem Json.Number.compareInteger_integer (n : Int) (low : Int64.minValue.toInt ≤ n)
    (high : n < UInt64.size) (m : Int64) :
    (integer n low high).compareInteger m = compare n m.toInt := by
  have most := m.toInt_le
  rw [compareInteger, toInt64?]
  by_cases fits : n ≤ Int64.maxValue.toInt
  · have kept : (Int64.ofInt n).toInt = n := Int64.toInt_ofInt_of_le low (by
      have := Int64.maxValue.toInt_lt
      omega)
    rw [if_pos fits]
    show compareOfLessAndEq _ _ = compareOfLessAndEq _ _
    simp only [compareOfLessAndEq, Int64.lt_iff_toInt_lt, ← Int64.toInt_inj, kept]
  · -- Above all numbers with a sign there is no need to compare.
    have unsigned : (integer n low high).isUInt64 = true := decide_eq_true (by
      have : 0 ≤ Int64.maxValue.toInt := by decide
      omega)
    rw [if_neg fits, Int.compare_eq_gt.2 (by omega)]
    exact if_pos unsigned

theorem Json.Number.compareInteger_float {x : Binary64} (finite : x.IsFinite) (m : Int64) :
    (float x finite).compareInteger m = x.order (.ofInt m.toInt) := by
  have order := Binary64.compare?_eq finite.ne_nan (Binary64.noConfusion : .ofInt m.toInt ≠ _)
  show (x.compare? (.ofInt m.toInt)).getD .lt = _
  rw [order, Option.getD_some]

theorem Literal.exists_compare? {l : Literal} {value : Json} (h : l.comparesWith value) :
    ∃ o, l.compare? value = some o ∧ ∀ k : Comparator, k.holds o = l.relates k value := by
  cases l with
  | integer m =>
    cases value with
    | number n =>
      cases n with
      | integer n low high =>
        refine ⟨compare n m.toInt, ?_, fun k => k.holds_compare_eq n m.toInt⟩
        exact congrArg some (Json.Number.compareInteger_integer n low high m)
      | float x finite =>
        refine ⟨x.order (.ofInt m.toInt), ?_, fun k => k.holds_compare_eq _ _⟩
        exact congrArg some (Json.Number.compareInteger_float finite m)
    | _ => cases h
  | float x =>
    cases value with
    | number n =>
      refine ⟨n.toBinary64.order x, ?_, fun k => k.holds_compare_eq _ _⟩
      exact Binary64.compare?_eq n.toBinary64_ne_nan (of_decide_eq_true h)
    | _ => cases h
  | string s =>
    cases value with
    | string t =>
      refine ⟨compare (Text.codePoints t) (Text.codePoints s), ?_, fun k => ?_⟩
      · exact congrArg some (Text.compareBytes_eq_compare_codePoints t s)
      · exact k.holds_of_compares (compares_compare_list _ _)
    | _ => cases h

/-- Only a literal can be no number, so nothing else keeps two numbers from having an order. -/
theorem Literal.compare?_eq_none {l : Literal} {value : Json} (h : l.comparesWith value = false) :
    l.compare? value = none := by
  cases l with
  | integer m =>
    cases value with
    | number n => cases h
    | _ => rfl
  | float x =>
    cases value with
    | number n =>
      obtain rfl : x = .nan := of_not_not (of_decide_eq_false h)
      exact Binary64.compare?_nan n.toBinary64
    | _ => rfl
  | string s =>
    cases value with
    | string t => cases h
    | _ => rfl

/-! ## Outcomes of conditions -/

/-- What a record gives for a name: the last member of that name. Only an object gives anything. -/
def Json.given? (name : String) : Json → Option Json
  | object members => (valuesOf name members).getLast?
  | _ => none

theorem Json.field?_eq_given? (name : String) (record : Json) :
    record.field? name = record.given? name := by
  cases record with
  | object members => exact field?_object name members
  | _ => rfl

/-- A field that is not there, a value that does not compare with the literal, or else whether the
two are to each other what the symbol says. -/
def Condition.outcome (record : Json) (c : Condition) : Except EvalError Bool :=
  match record.given? c.field with
  | none => .error (.fieldNotFound c.field)
  | some value =>
    if c.literal.comparesWith value then .ok (c.literal.relates c.comparator value)
    else .error (.typeMismatch c.field c.comparator value.typeName c.literal.typeName)

def Condition.fault? (record : Json) (c : Condition) : Option EvalError :=
  match c.outcome record with
  | .error e => some e
  | .ok _ => none

/-- Whether a condition is met, where it has no error. -/
def Condition.isMet (record : Json) (c : Condition) : Bool :=
  match c.outcome record with
  | .ok b => b
  | .error _ => false

/-- The Boolean expression of a tree over its conditions. -/
def Tree.value (met : Condition → Bool) : Tree → Bool
  | operand c => met c
  | operator .and left right => left.value met && right.value met
  | operator .or left right => left.value met || right.value met

theorem Condition.evaluateOn_eq_outcome (record : Json) (c : Condition) :
    c.evaluateOn record = c.outcome record := by
  rw [evaluateOn, outcome, Json.field?_eq_given?]
  cases record.given? c.field with
  | none => rfl
  | some value =>
    dsimp only
    rw [evaluate]
    by_cases compares : c.literal.comparesWith value
    · obtain ⟨o, order, holds⟩ := Literal.exists_compare? compares
      rw [order, if_pos compares, ← holds]
    · rw [Literal.compare?_eq_none (Bool.eq_false_iff.2 compares), if_neg compares]

theorem Condition.fault?_eq_none_iff {record : Json} {c : Condition} :
    c.fault? record = none ↔
      ∃ value, record.given? c.field = some value ∧ c.literal.comparesWith value := by
  unfold fault? outcome
  cases record.given? c.field with
  | none => simp
  | some value => cases h : c.literal.comparesWith value <;> simp [h]

/-! ## Outcomes of trees -/

theorem Tree.evaluate_operator (record : Json) (kind : Combinator) (left right : Tree) :
    (operator kind left right).evaluate record = (do
      let l ← left.evaluate record
      let r ← right.evaluate record
      return kind.apply l r) := rfl

/-- **Evaluation.** A rule has the first error of its conditions from left to right, also where the
conditions before it have decided; a rule without one has the value of its Boolean expression. So a
rule has a result just if each field it names is there with a value that compares. -/
theorem Tree.evaluate_eq_reference (record : Json) (t : Tree) :
    (t.evaluate record =
      match t.conditions.findSome? (·.fault? record) with
      | some e => .error e
      | none => .ok (t.value (·.isMet record))) ∧
    ((∃ b, t.evaluate record = .ok b) ↔ ∀ c ∈ t.conditions,
      ∃ value, record.given? c.field = some value ∧ c.literal.comparesWith value) := by
  have result : t.evaluate record =
      match t.conditions.findSome? (·.fault? record) with
      | some e => .error e
      | none => .ok (t.value (·.isMet record)) := by
    induction t with
    | operand c =>
      rw [evaluate, Condition.evaluateOn_eq_outcome]
      simp only [conditions, List.findSome?_cons, List.findSome?_nil, value, Condition.fault?,
        Condition.isMet]
      cases c.outcome record <;> rfl
    | operator kind left right ihl ihr =>
      rw [evaluate_operator, ihl, ihr, conditions, List.findSome?_append]
      cases left.conditions.findSome? (·.fault? record) with
      | some e => rfl
      | none =>
        cases right.conditions.findSome? (·.fault? record) with
        | some e => rfl
        | none => cases kind <;> rfl
  refine ⟨result, ?_⟩
  simp only [← Condition.fault?_eq_none_iff, ← List.findSome?_eq_none_iff, result]
  cases t.conditions.findSome? (·.fault? record) <;> simp

end RecordRules
