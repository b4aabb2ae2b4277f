import RecordRules.Proofs.NumberValues

/-!
# Conditions on numbers

A condition compares a number of a record with the number of its literal by their values, as long
as no integer is rounded to a float for it. An integer literal that is rounded makes one float of
records an equal that is none; a float literal is compared with floats only, so all forms of one
number stand to it alike.
-/

namespace RecordRules

/-- The number that a literal is; a string is none, nor is a float that is not finite. -/
def Literal.number? : Literal → Option Json.Number
  | integer n => some (.ofInt64 n)
  | float x => Json.Number.ofBinary64? x
  | string _ => none

namespace Json.Number

def IsWhole : Number → Prop
  | integer _ _ _ => True
  | float _ _ => False

instance (v : Number) : Decidable v.IsWhole :=
  match v with
  | integer _ _ _ => .isTrue trivial
  | float _ _ => .isFalse id

/-! ## The order of a number and a literal -/

/-- Integers compare exactly, all others as floats. -/
def order : Number → Number → Ordering
  | integer n _ _, integer m _ _ => compare n m
  | v, m => v.toBinary64.order m.toBinary64

theorem order_of_whole {v m : Number} (hv : v.IsWhole) (hm : m.IsWhole) :
    v.order m = compare v.toRat m.toRat := by
  cases v with
  | float x finite => exact hv.elim
  | integer n low high =>
    cases m with
    | float x finite => exact hm.elim
    | integer m low high =>
      exact Comparator.compare_eq_of_le_iff Int.cast_le.symm Int.cast_le.symm

theorem order_of_not_whole {v m : Number} (h : ¬ (v.IsWhole ∧ m.IsWhole)) :
    v.order m = v.toBinary64.order m.toBinary64 := by
  cases v with
  | float x finite => rfl
  | integer n low high =>
    cases m with
    | float x finite => rfl
    | integer m low high => exact absurd ⟨trivial, trivial⟩ h

theorem order_exact {v m : Number} (h : v.IsWhole ∧ m.IsWhole ∨ v.IsSmall ∧ m.IsSmall) :
    v.order m = compare v.toRat m.toRat := by
  by_cases whole : v.IsWhole ∧ m.IsWhole
  · exact order_of_whole whole.1 whole.2
  · obtain ⟨hv, hm⟩ := h.resolve_left whole
    rw [order_of_not_whole whole, Binary64.order_eq_compare_toRat, toRat_toBinary64 hv,
      toRat_toBinary64 hm]

end Json.Number

theorem Literal.compare?_number {l : Literal} {m : Json.Number} (numeric : l.number? = some m)
    (v : Json.Number) : l.compare? (.number v) = some (v.order m) := by
  cases l with
  | string s => cases numeric
  | integer k =>
    cases numeric
    cases v with
    | integer n low high => exact congrArg some (Json.Number.compareInteger_integer n low high k)
    | float x finite => exact congrArg some (Json.Number.compareInteger_float finite k)
  | float x =>
    have finite : x.IsFinite := by
      by_contra infinite
      rw [number?, Json.Number.ofBinary64?, dif_neg infinite] at numeric
      cases numeric
    rw [number?, Json.Number.ofBinary64?, dif_pos finite] at numeric
    cases numeric
    have floats : v.order (.float x finite) = v.toBinary64.order x :=
      Json.Number.order_of_not_whole fun whole => whole.2
    rw [floats, ← Binary64.compare?_eq v.toBinary64_ne_nan finite.ne_nan]
    rfl

theorem Condition.evaluate_number {c : Condition} {m : Json.Number}
    (numeric : c.literal.number? = some m) (v : Json.Number) :
    c.evaluate (.number v) = .ok (c.comparator.holds (v.order m)) := by
  rw [evaluate, Literal.compare?_number numeric]

theorem Condition.evaluate_compare {c : Condition} {v m : Json.Number}
    (numeric : c.literal.number? = some m) (h : v.order m = compare v.toRat m.toRat) :
    c.evaluate (.number v) = .ok (decide (c.comparator.Relation v.toRat m.toRat)) := by
  rw [evaluate_number numeric, h, Comparator.holds_compare_eq]

/-! ## Exact comparison -/

/-- **Exact comparison.** A condition says of a number how its value stands to that of the literal,
if both are integers, or if no integer among the two is beyond `2 ^ 53`. Against an integer no order
has to be made up: an integer that is not one with a sign is above all of these, and every other
number is a float and has an order. -/
theorem Condition.evaluate_exact (c : Condition) (v : Json.Number) :
    (∀ m, c.literal.number? = some m → (v.IsWhole ∧ m.IsWhole ∨ v.IsSmall ∧ m.IsSmall) →
      c.evaluate (.number v) = .ok (decide (c.comparator.Relation v.toRat m.toRat))) ∧
    (v.toInt64? = none →
      (v.isUInt64 = true → (Int64.maxValue.toInt : ℚ) < v.toRat) ∧
      (v.isUInt64 = false → ∃ x, v.toBinary64? = some x ∧
        ∀ literal : Int64, ∃ o, x.compare? (.ofInt literal.toInt) = some o)) := by
  refine ⟨fun m numeric h => evaluate_compare numeric (Json.Number.order_exact h), ?_⟩
  cases v with
  | integer n low high =>
    intro wide
    have above : ¬ n ≤ Int64.maxValue.toInt := fun fits => by
      simp [Json.Number.toInt64?, fits] at wide
    refine ⟨fun _ => Int.cast_lt.2 (Int.not_le.1 above), fun signed => ?_⟩
    have : 0 ≤ Int64.maxValue.toInt := by decide
    have below : ¬ 0 ≤ n := of_decide_eq_false signed
    omega
  | float x finite =>
    refine fun _ => ⟨fun unsigned => Bool.noConfusion unsigned, fun _ => ⟨x, rfl, fun _ => ?_⟩⟩
    exact ⟨_, Binary64.compare?_eq finite.ne_nan Binary64.noConfusion⟩

/-- The greatest number of a record against the greatest integer literal, and the least float above
zero against zero. -/
theorem Condition.evaluate_exact_bounds :
    let wide : Condition := ⟨"id", .gt, .integer 9223372036854775807⟩
    let most : Json.Number := .ofUInt64 18446744073709551615
    let zero : Condition := ⟨"x", .lteq, .integer 0⟩
    let least : Json.Number := .float (.signed false ⟨1, by decide⟩) (by decide)
    wide.evaluate (.number most) = .ok true ∧ (Int64.maxValue.toInt : ℚ) < most.toRat ∧
      zero.evaluate (.number least) = .ok false ∧ ∃ x, least.toBinary64? = some x ∧
        ∀ literal : Int64, ∃ o, x.compare? (.ofInt literal.toInt) = some o := by
  intro wide most zero least
  obtain ⟨exact, path⟩ := evaluate_exact wide most
  obtain ⟨exact', path'⟩ := evaluate_exact zero least
  refine ⟨?_, (path rfl).1 rfl, ?_, (path' rfl).2 rfl⟩
  · rw [exact (.ofInt64 9223372036854775807) rfl (.inl ⟨trivial, trivial⟩), Except.ok.injEq]
    decide +kernel
  · rw [exact' (.ofInt64 0) rfl (.inr ⟨trivial, by decide⟩), Except.ok.injEq]
    decide +kernel

/-! ## One number in several forms -/

namespace Json.Number

/-- A float that an integer is rounded to, but is not. -/
def IsRoundingOf (v m : Number) : Prop :=
  ¬ v.IsWhole ∧ m.IsWhole ∧ v.toRat = m.toBinary64.toRat ∧ v.toRat ≠ m.toRat

instance (v m : Number) : Decidable (v.IsRoundingOf m) := inferInstanceAs (Decidable (_ ∧ _))

theorem toRat_toBinary64_of_not_whole {v : Number} (h : ¬ v.IsWhole) :
    v.toBinary64.toRat = v.toRat := by
  cases v with
  | integer n low high => exact absurd trivial h
  | float x finite => rfl

theorem order_of_isRoundingOf {v m : Number} (h : v.IsRoundingOf m) : v.order m = .eq := by
  obtain ⟨notWhole, -, same, -⟩ := h
  rw [order_of_not_whole fun whole => notWhole whole.1, Binary64.order_eq_compare_toRat,
    toRat_toBinary64_of_not_whole notWhole]
  exact compare_eq_iff_eq.2 same

/-- Rounding keeps the order, so it can only make equals of numbers that are none. -/
theorem order_of_not_isRoundingOf {v m : Number} (whole : m.IsWhole) (h : ¬ v.IsRoundingOf m) :
    v.order m = compare v.toRat m.toRat := by
  by_cases hv : v.IsWhole
  · exact order_of_whole hv whole
  · have exact := toRat_toBinary64_of_not_whole hv
    have apart (differ : v.toRat ≠ m.toRat) : v.toBinary64.toRat ≠ m.toBinary64.toRat :=
      fun same => h ⟨hv, whole, exact.symm.trans same, differ⟩
    rw [order_of_not_whole fun both => hv both.1, Binary64.order_eq_compare_toRat]
    rcases lt_trichotomy v.toRat m.toRat with less | same | greater
    · have le := Binary64.toRat_le_iff.2 (position_toBinary64_le less.le)
      rw [compare_lt_iff_lt.2 less, compare_lt_iff_lt.2 (lt_of_le_of_ne le (apart less.ne))]
    · have eq := Binary64.toRat_eq_iff.2 (position_toBinary64_eq same)
      rw [compare_eq_iff_eq.2 same, compare_eq_iff_eq.2 eq]
    · have le := Binary64.toRat_le_iff.2 (position_toBinary64_le greater.le)
      rw [compare_gt_iff_gt.2 greater,
        compare_gt_iff_gt.2 (lt_of_le_of_ne le (apart greater.ne').symm)]

/-- Two numbers are compared alike, by their values or as floats, unless one is an integer and the
other what an integer is rounded to. -/
theorem order_cases {m v w : Number} (hw : ¬ (v.IsWhole ∧ w.IsRoundingOf m))
    (hv : ¬ (w.IsWhole ∧ v.IsRoundingOf m)) :
    (v.order m = compare v.toRat m.toRat ∧ w.order m = compare w.toRat m.toRat) ∨
      (v.order m = v.toBinary64.order m.toBinary64 ∧
        w.order m = w.toBinary64.order m.toBinary64) := by
  by_cases whole : m.IsWhole
  · by_cases wholes : v.IsWhole
    · exact .inl ⟨order_of_whole wholes whole,
        order_of_not_isRoundingOf whole fun rounding => hw ⟨wholes, rounding⟩⟩
    · by_cases wholes' : w.IsWhole
      · exact .inl ⟨order_of_not_isRoundingOf whole fun rounding => hv ⟨wholes', rounding⟩,
          order_of_whole wholes' whole⟩
      · exact .inr ⟨order_of_not_whole fun both => wholes both.1,
          order_of_not_whole fun both => wholes' both.1⟩
  · exact .inr ⟨order_of_not_whole fun both => whole both.2,
      order_of_not_whole fun both => whole both.2⟩

theorem order_congr {m v w : Number} (same : v.toRat = w.toRat)
    (hw : ¬ (v.IsWhole ∧ w.IsRoundingOf m)) (hv : ¬ (w.IsWhole ∧ v.IsRoundingOf m)) :
    v.order m = w.order m := by
  rcases order_cases hw hv with ⟨byValue, byValue'⟩ | ⟨asFloat, asFloat'⟩
  · rw [byValue, byValue', same]
  · rw [asFloat, asFloat', Binary64.order, Binary64.order, position_toBinary64_eq same]

/-- A greater number stays above a literal, be it rounded or not. -/
theorem holds_order_of_le {k : Comparator} {m v w : Number} (le : v.toRat ≤ w.toRat)
    (upward : k = .gt ∧ ¬ (v.IsWhole ∧ w.IsRoundingOf m) ∨
      k = .gteq ∧ ¬ (w.IsWhole ∧ v.IsRoundingOf m))
    (holds : k.holds (v.order m) = true) : k.holds (w.order m) = true := by
  by_cases hw : v.IsWhole ∧ w.IsRoundingOf m
  · -- An equal is not above, but it is enough for the other comparator.
    obtain ⟨rfl, -⟩ := upward.resolve_left fun above => above.2 hw
    rw [order_of_isRoundingOf hw.2]
    rfl
  · by_cases hv : w.IsWhole ∧ v.IsRoundingOf m
    · obtain ⟨rfl, -⟩ := upward.resolve_right fun atLeast => atLeast.2 hv
      rw [order_of_isRoundingOf hv.2] at holds
      cases holds
    · have upward : k = .gt ∨ k = .gteq := upward.imp And.left And.left
      rcases order_cases hw hv with ⟨byValue, byValue'⟩ | ⟨asFloat, asFloat'⟩
      · rw [byValue] at holds
        rw [byValue']
        exact Comparator.holds_of_le upward le holds
      · rw [asFloat] at holds
        rw [asFloat']
        exact Comparator.holds_of_le upward (position_toBinary64_le le) holds

end Json.Number

/-- **Forms of numbers.** A condition says the same of two forms of one number, and of a greater
number that it is above the literal if it says so of a smaller one. The one exception is a float
that an integer literal is rounded to, next to an integer: it is taken for the literal itself. -/
theorem Condition.evaluate_by_value {c : Condition} {m : Json.Number}
    (numeric : c.literal.number? = some m) (v w : Json.Number) :
    (v.toRat = w.toRat → ¬ (v.IsWhole ∧ w.IsRoundingOf m) → ¬ (w.IsWhole ∧ v.IsRoundingOf m) →
      c.evaluate (.number v) = c.evaluate (.number w)) ∧
    (v.toRat ≤ w.toRat →
      c.comparator = .gt ∧ ¬ (v.IsWhole ∧ w.IsRoundingOf m) ∨
        c.comparator = .gteq ∧ ¬ (w.IsWhole ∧ v.IsRoundingOf m) →
      c.evaluate (.number v) = .ok true → c.evaluate (.number w) = .ok true) ∧
    (m.IsWhole → c.evaluate (.number v) = .ok (decide
      (c.comparator.Relation (if v.IsRoundingOf m then m.toRat else v.toRat) m.toRat))) := by
  rw [evaluate_number numeric, evaluate_number numeric]
  refine ⟨fun same hw hv => ?_, fun le upward holds => ?_, fun whole => ?_⟩
  · rw [Json.Number.order_congr same hw hv]
  · rw [Except.ok.injEq] at holds ⊢
    exact Json.Number.holds_order_of_le le upward holds
  · rw [← Comparator.holds_compare_eq]
    by_cases h : v.IsRoundingOf m
    · rw [if_pos h, Json.Number.order_of_isRoundingOf h, compare_eq_iff_eq.2 (rfl : m.toRat = _)]
    · rw [if_neg h, Json.Number.order_of_not_isRoundingOf whole h]

/-- A literal that is rounded, two forms of the number after it and the greatest number of a record:
no exception. -/
theorem Condition.evaluate_by_value_beside :
    let c : Condition := ⟨"f", .gt, .integer 9007199254740993⟩
    let v : Json.Number := .ofInt64 9007199254740994
    let w : Json.Number := .float (.ofInt 9007199254740994) (by decide +kernel)
    let most : Json.Number := .ofUInt64 18446744073709551615
    c.evaluate (.number v) = .ok true ∧ c.evaluate (.number w) = .ok true ∧
      c.evaluate (.number most) = .ok true := by
  intro c v w most
  obtain ⟨same, -, -⟩ := @evaluate_by_value c (.ofInt64 9007199254740993) rfl v w
  obtain ⟨-, raised, -⟩ := @evaluate_by_value c (.ofInt64 9007199254740993) rfl w most
  have whole : c.evaluate (.number v) = .ok true := rfl
  have float : c.evaluate (.number w) = .ok true := by
    refine (same ?_ ?_ ?_).symm.trans whole
    · decide +kernel
    · decide +kernel
    · decide +kernel
  refine ⟨whole, float, raised ?_ (.inl ⟨rfl, ?_⟩) float⟩
  · decide +kernel
  · decide +kernel

/-- An integer in its two forms next to a literal that is rounded to it: as a float it is taken for
the literal, as an integer it is less. -/
theorem Condition.evaluate_by_value_fails :
    let c (k : Comparator) : Condition := ⟨"f", k, .integer 9007199254740993⟩
    let v : Json.Number := .ofInt64 9007199254740992
    let w : Json.Number := .float (.ofInt 9007199254740992) (by decide +kernel)
    v.toRat = w.toRat ∧
      (c .eq).evaluate (.number v) = .ok false ∧ (c .eq).evaluate (.number w) = .ok true ∧
      (c .gteq).evaluate (.number w) = .ok true ∧ (c .gteq).evaluate (.number v) = .ok false := by
  intro c v w
  refine ⟨?_, rfl, ?_, ?_, rfl⟩
  · decide +kernel
  · decide +kernel
  · decide +kernel

end RecordRules
