import Mathlib.Algebra.Order.Field.Rat
import Mathlib.Algebra.Order.Field.Basic
import RecordRules.Proofs.ExactReading
import RecordRules.Proofs.NearestOrder

/-!
# The values of numbers

A finite float is a rational number, and floats compare as these do. The float of a JSON number is
no smaller for a greater number, the same for two forms of one number, and of the same value for an
integer of 53 bits.
-/

namespace RecordRules

/-! ## Magnitudes -/

namespace Magnitude

theorem significand_lt (m : Magnitude) : m.significand < 2 ^ 53 := by
  by_cases h : m.val < binade
  · rw [significand, if_pos h]
    exact Nat.lt_trans h (by decide)
  · exact (significand_bounds h).2

theorem shift_le_shift {m n : Magnitude} (h : m.val ≤ n.val) : m.shift ≤ n.shift :=
  Nat.sub_le_sub_right (Nat.div_le_div_right h) 1

/-- A magnitude of a greater rank is greater. -/
theorem units_lt_units {m n : Magnitude} (h : m.val < n.val) : m.units < n.units := by
  have pos : 0 < 2 ^ m.shift := Nat.two_pow_pos _
  rcases Nat.lt_or_eq_of_le (shift_le_shift (Nat.le_of_lt h)) with finer | same
  · have full : 2 ^ 52 ≤ n.significand := by
      refine (significand_bounds fun small => ?_).1
      rw [shift_of_lt small] at finer
      exact Nat.not_lt_zero _ finer
    calc m.units = m.significand * 2 ^ m.shift := units_eq m
      _ < 2 ^ 53 * 2 ^ m.shift := Nat.mul_lt_mul_of_pos_right m.significand_lt pos
      _ = 2 ^ 52 * 2 ^ (m.shift + 1) := by rw [Nat.pow_succ]; omega
      _ ≤ 2 ^ 52 * 2 ^ n.shift := Nat.mul_le_mul_left _ (Nat.pow_le_pow_right (by decide) finer)
      _ ≤ n.significand * 2 ^ n.shift := Nat.mul_le_mul_right _ full
      _ = n.units := (units_eq n).symm
  · have rank := m.shift_mul_add_significand
    have rank' := n.shift_mul_add_significand
    rw [← same] at rank'
    rw [units_eq, units_eq, ← same]
    exact Nat.mul_lt_mul_of_pos_right (by omega) pos

theorem units_le_iff {m n : Magnitude} : m.units ≤ n.units ↔ m.val ≤ n.val := by
  constructor
  · intro h
    by_contra less
    exact Nat.not_lt.2 h (units_lt_units (Nat.not_le.1 less))
  · intro h
    rcases Nat.lt_or_eq_of_le h with less | same
    · exact Nat.le_of_lt (units_lt_units less)
    · rw [Fin.ext same]

theorem units_eq_zero_iff {m : Magnitude} : m.units = 0 ↔ m.val = 0 := by
  have zero : units ⟨0, Nat.succ_pos _⟩ = 0 := by
    rw [units_eq, significand, if_pos (show 0 < binade from Nat.two_pow_pos 52), Nat.zero_mul]
  have le := units_le_iff (m := m) (n := ⟨0, Nat.succ_pos _⟩)
  rwa [zero, Nat.le_zero, Nat.le_zero] at le

/-- A natural number of 53 bits is a magnitude, and so is the next power of two. -/
theorem units_ofNat_of_le {n : Nat} (h : n ≤ 2 ^ 53) : (ofNat n).units = n * unitsOfOne := by
  rcases Nat.lt_or_eq_of_le h with less | same
  · exact units_ofNat (Nat.mul_one n).symm less (Nat.zero_le _)
  · exact units_ofNat (a := 1) (e := 53) (by rw [same, Nat.one_mul]) (by decide) (by decide)

end Magnitude

/-! ## Floats -/

namespace Binary64

/-- A float in units of the least positive magnitude; `nan` has none. -/
def units : Binary64 → Int
  | nan => 0
  | signed negative m => if negative then -(m.units : Int) else m.units

/-- The number that a finite float is. -/
def toRat (x : Binary64) : ℚ := x.units / Magnitude.unitsOfOne

theorem units_signed (negative : Bool) (m : Magnitude) :
    (signed negative m).units = if negative then -(m.units : Int) else m.units := rfl

theorem exists_signed (x : Binary64) : ∃ s m, x.units = (signed s m).units ∧
    x.position = (signed s m).position := by
  cases x with
  | signed s m => exact ⟨s, m, rfl, rfl⟩
  | nan =>
    -- It has the place of zero.
    have zero : Magnitude.units ⟨0, Nat.succ_pos _⟩ = 0 := Magnitude.units_eq_zero_iff.2 rfl
    exact ⟨false, ⟨0, Nat.succ_pos _⟩, congrArg Int.ofNat zero.symm, rfl⟩

theorem units_le_iff {x y : Binary64} : x.units ≤ y.units ↔ x.position ≤ y.position := by
  obtain ⟨s, m, units, position⟩ := x.exists_signed
  obtain ⟨t, n, units', position'⟩ := y.exists_signed
  rw [units, units', position, position']
  have le := Magnitude.units_le_iff (m := m) (n := n)
  have ge := Magnitude.units_le_iff (m := n) (n := m)
  have zero := Magnitude.units_eq_zero_iff (m := m)
  have zero' := Magnitude.units_eq_zero_iff (m := n)
  cases s <;> cases t <;>
    simp only [units_signed, Binary64.position, if_true, if_false, Bool.false_eq_true] <;>
    omega

theorem unitsOfOne_pos : (0 : ℚ) < Magnitude.unitsOfOne := by
  exact_mod_cast Magnitude.unitsOfOne_pos

theorem toRat_le_iff {x y : Binary64} : x.toRat ≤ y.toRat ↔ x.position ≤ y.position := by
  rw [toRat, toRat, div_le_div_iff_of_pos_right unitsOfOne_pos, Int.cast_le, units_le_iff]

theorem toRat_eq_iff {x y : Binary64} : x.toRat = y.toRat ↔ x.position = y.position := by
  rw [le_antisymm_iff, le_antisymm_iff, toRat_le_iff, toRat_le_iff]

/-- Floats compare as the numbers that they are. -/
theorem order_eq_compare_toRat (x y : Binary64) : x.order y = compare x.toRat y.toRat :=
  (Comparator.compare_eq_of_le_iff toRat_le_iff toRat_le_iff).symm

/-- A finite float is the one nearest to its own value. -/
theorem IsFinite.position_eq {x : Binary64} (finite : x.IsFinite) : x.position =
    place (x.units < 0) (.nearest x.units.natAbs Magnitude.unitsOfOne) := by
  cases x with
  | nan => exact finite.elim
  | signed negative m =>
    have nearest : Magnitude.nearest m.units Magnitude.unitsOfOne = m :=
      Magnitude.nearest_units finite
    rw [units_signed]
    cases negative with
    | false =>
      have notBelow : ¬ (m.units : Int) < 0 := by omega
      rw [if_neg Bool.false_ne_true, Int.natAbs_natCast, nearest, decide_eq_false notBelow]
      rfl
    | true =>
      rw [if_pos rfl, Int.natAbs_neg, Int.natAbs_natCast, nearest]
      by_cases zero : m.units = 0
      · -- Zero has one place, with and without a sign.
        simp [position, place, zero, Magnitude.units_eq_zero_iff.1 zero]
      · have below : -(m.units : Int) < 0 := by omega
        rw [decide_eq_true below]
        rfl

theorem units_ofInt {n : Int} (h : n.natAbs ≤ 2 ^ 53) :
    (ofInt n).units = n * Magnitude.unitsOfOne := by
  rw [ofInt, units_signed, Magnitude.units_ofNat_of_le h]
  by_cases sign : n < 0
  · rw [if_pos (decide_eq_true sign), Int.natCast_mul, ← Int.neg_mul]
    congr 1
    omega
  · rw [if_neg (by simpa using sign), Int.natCast_mul]
    congr 1
    omega

end Binary64

namespace Json.Number

/-! ## JSON numbers -/

def toRat : Number → ℚ
  | integer n _ _ => n
  | float x _ => x.toRat

def units : Number → Int
  | integer n _ _ => n * Magnitude.unitsOfOne
  | float x _ => x.units

theorem toRat_eq (v : Number) : v.toRat = v.units / Magnitude.unitsOfOne := by
  cases v with
  | integer n low high =>
    have nonzero := Binary64.unitsOfOne_pos.ne'
    rw [toRat, units, Int.cast_mul, Int.cast_natCast, mul_div_cancel_right₀ _ nonzero]
  | float x finite => rfl

theorem units_le_of_toRat_le {v w : Number} (h : v.toRat ≤ w.toRat) : v.units ≤ w.units := by
  rwa [toRat_eq, toRat_eq, div_le_div_iff_of_pos_right Binary64.unitsOfOne_pos, Int.cast_le] at h

/-- The float of a number is the one nearest to its value. -/
theorem position_toBinary64 (v : Number) : v.toBinary64.position =
    Binary64.place (v.units < 0) (.nearest v.units.natAbs Magnitude.unitsOfOne) := by
  have pos := Magnitude.unitsOfOne_pos
  cases v with
  | integer n low high =>
    have sign : n * (Magnitude.unitsOfOne : Int) < 0 ↔ n < 0 := by
      have keeps := Int.mul_lt_mul_right (b := n) (c := 0) (Int.ofNat_lt.2 pos)
      rwa [Int.zero_mul] at keeps
    have size : Magnitude.nearest (n * (Magnitude.unitsOfOne : Int)).natAbs Magnitude.unitsOfOne =
        .ofNat n.natAbs := by
      refine Magnitude.nearest_eq_of_mul_eq pos Nat.one_pos ?_
      rw [Int.natAbs_mul, Int.natAbs_natCast, Nat.mul_one]
    rw [units, size, decide_eq_decide.2 sign]
    rfl
  | float x finite => exact finite.position_eq

theorem position_toBinary64_le {v w : Number} (h : v.toRat ≤ w.toRat) :
    v.toBinary64.position ≤ w.toBinary64.position := by
  rw [position_toBinary64, position_toBinary64]
  exact Binary64.place_nearest_le Magnitude.unitsOfOne_pos (units_le_of_toRat_le h)

theorem position_toBinary64_eq {v w : Number} (h : v.toRat = w.toRat) :
    v.toBinary64.position = w.toBinary64.position :=
  le_antisymm (position_toBinary64_le h.le) (position_toBinary64_le h.ge)

/-- An integer of 53 bits at most, or a float. -/
def IsSmall : Number → Prop
  | integer n _ _ => n.natAbs ≤ 2 ^ 53
  | float _ _ => True

instance (v : Number) : Decidable v.IsSmall :=
  match v with
  | integer n _ _ => inferInstanceAs (Decidable (n.natAbs ≤ 2 ^ 53))
  | float _ _ => .isTrue trivial

theorem toRat_toBinary64 {v : Number} (h : v.IsSmall) : v.toBinary64.toRat = v.toRat := by
  cases v with
  | integer n low high =>
    rw [toBinary64, Binary64.toRat, Binary64.units_ofInt h, toRat_eq, units]
  | float x finite => rfl

end Json.Number

end RecordRules
