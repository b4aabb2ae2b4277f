import Mathlib.Data.List.TakeWhile
import RecordRules.Number.Scientific
import RecordRules.Proofs.Overflow
import RecordRules.Proofs.WrittenNumber

/-!
# Digits read as scientific notation

The reader of floats does not compute a power of ten that is far from one. Main statements: the
result is the nearest magnitude all the same, and digits with a sign and a point, or without them,
are never refused.
-/

namespace RecordRules

open Json.NumberText (fractionChars)
open Literal (signChars)

/-! ## Far exponents -/

/-- Less than half of the least magnitude is rounded to zero. -/
theorem Magnitude.nearest_val_eq_zero {num den : Nat} (h : 2 * (num * unitsOfOne) < den) :
    (nearest num den).val = 0 := by
  have quotient : num * unitsOfOne / den = 0 := Nat.div_eq_of_lt (by omega)
  have grid : gridExponent num den = 0 := by simp [gridExponent, quotient]
  have rounded : roundDiv (num * unitsOfOne) den = 0 := by
    have cases := roundDiv_cases (num * unitsOfOne) den
    rw [quotient, Nat.mod_eq_of_lt (by omega)] at cases
    omega
  rw [nearest_val, grid, Nat.pow_zero, Nat.mul_one, rounded, Nat.zero_mul, Nat.zero_add,
    Nat.zero_min]

namespace Decimal

theorem pow_length_le {n : Nat} (hn : n ≠ 0) : 10 ^ ((Nat.toDigits 10 n).length - 1) ≤ n := by
  by_contra below
  have pos : 0 < (Nat.toDigits 10 n).length := Nat.length_toDigits_pos
  by_cases one : (Nat.toDigits 10 n).length = 1
  · rw [one] at below
    omega
  · have := (Nat.length_toDigits_le_iff (by decide) (by omega)).2 (Nat.not_le.1 below)
    omega

theorem lt_pow_length (n : Nat) : n < 10 ^ (Nat.toDigits 10 n).length :=
  (Nat.length_toDigits_le_iff (by decide) Nat.length_toDigits_pos).1 (Nat.le_refl _)

/-- A power of ten that is far: greater than all finite magnitudes, and so is its least part. -/
theorem lt_pow_of_far {k : Nat} (h : farExponent ≤ k) :
    2 * Magnitude.unitsOfOne < 10 ^ k ∧ Magnitude.overflow ≤ 10 ^ k := by
  have far : 2 * Magnitude.unitsOfOne < 10 ^ farExponent.toNat ∧
      Magnitude.overflow ≤ 10 ^ farExponent.toNat := by decide +kernel
  have grows : 10 ^ farExponent.toNat ≤ 10 ^ k := Nat.pow_le_pow_right (by decide) (by omega)
  exact ⟨Nat.lt_of_lt_of_le far.1 grows, Nat.le_trans far.2 grows⟩

theorem toMagnitude_val_of_lt {d : Decimal} (h : d.leadingExponent < -farExponent) :
    d.toMagnitude.val = 0 := by
  have below := lt_pow_length d.digits
  rw [leadingExponent] at h
  generalize (Nat.toDigits 10 d.digits).length = length at below h
  have positive : 0 ≤ farExponent := by decide
  obtain ⟨k, places⟩ := Nat.exists_eq_add_of_le (show length ≤ (-d.exponent).toNat by omega)
  have far := (lt_pow_of_far (k := k) (by omega)).1
  rw [toMagnitude_eq_nearest, show d.exponent.toNat = 0 by omega, Nat.pow_zero, Nat.mul_one]
  apply Magnitude.nearest_val_eq_zero
  calc 2 * (d.digits * Magnitude.unitsOfOne)
      = d.digits * (2 * Magnitude.unitsOfOne) := Nat.mul_left_comm ..
    _ ≤ 10 ^ length * (2 * Magnitude.unitsOfOne) := Nat.mul_le_mul_right _ (Nat.le_of_lt below)
    _ < 10 ^ length * 10 ^ k := Nat.mul_lt_mul_of_pos_left far (Nat.pow_pos (by decide))
    _ = 10 ^ (-d.exponent).toNat := by rw [places, Nat.pow_add]

theorem toMagnitude_of_gt {d : Decimal} (hd : d.digits ≠ 0)
    (h : farExponent < d.leadingExponent) : d.toMagnitude = .infinity := by
  have above := pow_length_le hd
  have pos : 0 < (Nat.toDigits 10 d.digits).length := Nat.length_toDigits_pos
  rw [leadingExponent] at h
  generalize (Nat.toDigits 10 d.digits).length = length at above h pos
  have positive : 0 ≤ farExponent := by decide
  obtain ⟨k, places⟩ := Nat.exists_eq_add_of_le
    (show (-d.exponent).toNat ≤ (length - 1) + d.exponent.toNat by omega)
  have far := (lt_pow_of_far (k := k) (by omega)).2
  have overflows : d.Overflows := by
    calc Magnitude.overflow * 10 ^ (-d.exponent).toNat
        ≤ 10 ^ k * 10 ^ (-d.exponent).toNat := Nat.mul_le_mul_right _ far
      _ = 10 ^ (length - 1) * 10 ^ d.exponent.toNat := by
        rw [← Nat.pow_add, ← Nat.pow_add, places, Nat.add_comm]
      _ ≤ d.digits * 10 ^ d.exponent.toNat := Nat.mul_le_mul_right _ above
  have infinite : ¬ d.toMagnitude.IsFinite := fun finite =>
    (isFinite_toMagnitude_iff d).1 finite overflows
  apply Fin.ext
  exact Nat.le_antisymm (Nat.le_of_lt_succ d.toMagnitude.isLt) (Nat.not_lt.1 infinite)

/-- A power of ten is left out only where it changes nothing. -/
theorem nearestMagnitude_eq_toMagnitude (d : Decimal) : d.nearestMagnitude = d.toMagnitude := by
  unfold nearestMagnitude
  split
  · rename_i low
    rw [Bool.or_eq_true, decide_eq_true_eq, decide_eq_true_eq] at low
    apply Fin.ext
    rcases low with zero | near
    · have small : 2 * (0 * Magnitude.unitsOfOne) < 10 ^ (-d.exponent).toNat := by
        rw [Nat.zero_mul]
        exact Nat.pow_pos (by decide)
      rw [toMagnitude_eq_nearest, zero, Nat.zero_mul, Magnitude.nearest_val_eq_zero small]
    · rw [toMagnitude_val_of_lt near]
  · rename_i low
    simp only [Bool.or_eq_true, decide_eq_true_eq, not_or] at low
    split
    · rename_i far
      exact (toMagnitude_of_gt low.1 far).symm
    · rfl

/-! ## Digits -/

section
variable {cs whole : List Char} {fraction : Option (List Char)}

theorem takeSign_signed (start : ∀ c ∈ cs.head?, c.isDigit ∨ c = '.') (negative : Bool) :
    takeSign (signChars negative ++ cs) = (negative, cs) := by
  cases negative with
  | true => rfl
  | false =>
    rcases cs with _ | ⟨c, cs⟩
    · rfl
    have plus : c ≠ '+' := by
      rintro rfl
      exact absurd (start _ rfl) (by decide)
    have minus : c ≠ '-' := by
      rintro rfl
      exact absurd (start _ rfl) (by decide)
    simp [signChars, takeSign, takeMinus, plus, minus]

variable (all : ∀ c ∈ whole, c.isDigit) (all' : ∀ digits ∈ fraction, ∀ c ∈ digits, c.isDigit)
include all all'

theorem isDigit_or_eq_point : ∀ c ∈ whole ++ fractionChars fraction, c.isDigit ∨ c = '.' := by
  intro c hc
  rcases List.mem_append.1 hc with hc | hc
  · exact .inl (all c hc)
  · cases fraction with
    | none => cases hc
    | some digits =>
      rcases List.mem_cons.1 hc with rfl | hc
      · exact .inr rfl
      · exact .inl (all' digits rfl c hc)

variable (hne : whole ++ fraction.getD [] ≠ [])
include hne

/-- Digits with a point or without one are read to the number that they show. -/
theorem ofChars?_digits :
    ofChars? (whole ++ fractionChars fraction) = some (ofPointed whole (fraction.getD [])) := by
  have noMark : ∀ c ∈ whole ++ fractionChars fraction, (!(c == 'e' || c == 'E')) = true := by
    intro c hc
    have digit := isDigit_or_eq_point all all' c hc
    rw [Bool.not_eq_true', Bool.or_eq_false_iff, beq_eq_false_iff_ne, beq_eq_false_iff_ne]
    constructor
    · rintro rfl
      simp at digit
    · rintro rfl
      simp at digit
  have mantissa := List.takeWhile_eq_self_iff.2 noMark
  have digits : (whole ++ fractionChars fraction).takeWhile Char.isDigit = whole := by
    rw [List.takeWhile_append_of_pos all]
    cases fraction <;> simp [fractionChars]
  unfold ofChars?
  dsimp only
  rw [mantissa, digits, List.drop_length, List.drop_left]
  cases fraction with
  | none =>
    have some : whole ≠ [] := by simpa using hne
    simp [fractionChars, some]
  | some after =>
    have only : after.all Char.isDigit := List.all_eq_true.2 (all' after rfl)
    have some : whole = [] → after ≠ [] := by simpa using hne
    simp only [fractionChars, only, if_true]
    simpa using some

end

end Decimal

namespace Binary64

theorem toLower_of_digit {c : Char} (h : c.isDigit ∨ c = '.') : c.toLower = c := by
  have low : c.val.toNat ≤ 57 := by
    rcases h with h | rfl
    · simp only [Char.isDigit, Bool.and_eq_true, decide_eq_true_eq] at h
      exact UInt32.le_iff_toNat_le.1 h.2
    · decide
  unfold Char.toLower
  split
  · rename_i upper
    have : 65 ≤ c.val.toNat := UInt32.le_iff_toNat_le.1 upper.1
    omega
  · rfl

/-- A text that starts with a digit or a point is no name. -/
theorem ofList_ne {c : Char} {cs : List Char} {name : String} (h : c.isDigit ∨ c = '.')
    (start : name.toList.head?.all fun d => !(d.isDigit || d == '.')) :
    String.ofList (c :: cs) ≠ name := by
  rintro rfl
  rw [String.toList_ofList, List.head?_cons, Option.all_some] at start
  rcases h with digit | rfl
  · simp [digit] at start
  · simp at start

/-- Digits with a sign and a point, or without them, are read as the float nearest to them. -/
theorem ofText?_signed (negative : Bool) {whole : List Char} (fraction : Option (List Char))
    (all : ∀ c ∈ whole, c.isDigit) (all' : ∀ digits ∈ fraction, ∀ c ∈ digits, c.isDigit)
    (hne : whole ++ fraction.getD [] ≠ []) :
    ofText? (String.ofList (signChars negative ++ (whole ++ fractionChars fraction))) =
      some (.signed negative (Decimal.ofPointed whole (fraction.getD [])).toMagnitude) := by
  have number := Decimal.ofChars?_digits all all' hne
  have only := Decimal.isDigit_or_eq_point all all'
  have some : whole ++ fractionChars fraction ≠ [] := by
    intro hnil
    cases fraction <;> simp_all [fractionChars]
  generalize whole ++ fractionChars fraction = cs at number only some
  obtain ⟨c, cs, rfl⟩ := List.exists_cons_of_ne_nil some
  have start := only c List.mem_cons_self
  have sign : Decimal.takeSign (signChars negative ++ (c :: cs)) = (negative, c :: cs) :=
    Decimal.takeSign_signed (by simpa using start) negative
  unfold ofText?
  rw [String.toList_ofList, sign]
  dsimp only
  rw [number, Option.map_some, Decimal.nearestMagnitude_eq_toMagnitude, List.map_cons,
    toLower_of_digit start, if_neg (ofList_ne start (by decide)), if_neg]
  rw [Bool.or_eq_true, decide_eq_true_eq, decide_eq_true_eq, not_or]
  exact ⟨ofList_ne start (by decide), ofList_ne start (by decide)⟩

end Binary64

end RecordRules
