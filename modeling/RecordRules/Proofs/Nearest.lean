import Mathlib.Algebra.Group.Nat.Defs
import RecordRules.Number.Decimal

/-!
# The nearest magnitude

Rounding depends on the value of a quotient and not on how it is written, and it keeps what is a
magnitude already. So the fewest digits that stand for a magnitude are read back to it.
-/

namespace RecordRules

namespace Magnitude

/-! ## Powers of two -/

theorem binade_eq : binade = 2 ^ 52 := rfl

theorem units_eq (m : Magnitude) : m.units = m.significand * 2 ^ m.shift := rfl

theorem unitsOfOne_eq : unitsOfOne = 2 ^ unitExponent := by
  unfold unitsOfOne
  generalize unitExponent = k
  rfl

theorem unitsOfOne_pos : 0 < unitsOfOne := by
  rw [unitsOfOne_eq]
  exact Nat.two_pow_pos unitExponent

theorem nearest_val (num den : Nat) : (nearest num den).val =
    min (gridExponent num den * binade +
      roundDiv (num * unitsOfOne) (den * 2 ^ gridExponent num den)) infinityRank := rfl

/-! ## Rounding -/

theorem nearest_mul_mul_left (num den : Nat) {k : Nat} (h : 0 < k) :
    nearest (k * num) (k * den) = nearest num den := by
  have grid : gridExponent (k * num) (k * den) = gridExponent num den := by
    rw [gridExponent, gridExponent, Nat.mul_assoc, Nat.mul_div_mul_left _ _ h]
  have round : ∀ e, roundDiv (k * num * unitsOfOne) (k * den * 2 ^ e) =
      roundDiv (num * unitsOfOne) (den * 2 ^ e) := fun e => by
    rw [Nat.mul_assoc, Nat.mul_assoc, roundDiv_mul_mul_left _ _ h]
  apply Fin.ext
  rw [nearest_val, nearest_val, grid, round]

/-- Quotients of one value have one nearest magnitude. -/
theorem nearest_eq_of_mul_eq {num den num' den' : Nat} (hden : 0 < den) (hden' : 0 < den')
    (h : num * den' = num' * den) : nearest num den = nearest num' den' := by
  calc nearest num den = nearest (den' * num) (den' * den) := (nearest_mul_mul_left _ _ hden').symm
    _ = nearest (den * num') (den * den') := by
      rw [Nat.mul_comm den', h, Nat.mul_comm num', Nat.mul_comm den']
    _ = nearest num' den' := nearest_mul_mul_left _ _ hden

/-! ## Magnitudes on their grids -/

theorem shift_of_lt {m : Magnitude} (h : m.val < binade) : m.shift = 0 := by
  rw [shift, Nat.div_eq_of_lt h]

theorem shift_mul_add_significand (m : Magnitude) : m.shift * binade + m.significand = m.val := by
  by_cases h : m.val < binade
  · rw [shift_of_lt h, significand, if_pos h, Nat.zero_mul, Nat.zero_add]
  · have one : 1 ≤ m.val / binade :=
      (Nat.one_le_div_iff (Nat.two_pow_pos 52)).2 (Nat.le_of_not_lt h)
    have whole := Nat.div_add_mod' m.val binade
    obtain ⟨q, hq⟩ := Nat.exists_eq_add_of_le' one
    rw [significand, if_neg h, shift, hq, Nat.add_sub_cancel]
    rw [hq, Nat.succ_mul] at whole
    omega

theorem significand_bounds {m : Magnitude} (h : ¬ m.val < binade) :
    2 ^ 52 ≤ m.significand ∧ m.significand < 2 ^ 53 := by
  rw [significand, if_neg h]
  rw [binade_eq] at h ⊢
  have := Nat.mod_lt m.val (Nat.two_pow_pos 52)
  omega

theorem log2_units_sub (m : Magnitude) : m.units.log2 - 52 = m.shift := by
  by_cases h : m.val < binade
  · have whole : m.units = m.val := by
      rw [units_eq, shift_of_lt h, significand, if_pos h, Nat.pow_zero, Nat.mul_one]
    rw [whole, shift_of_lt h, Nat.sub_eq_zero_iff_le]
    by_cases hzero : m.val = 0
    · simp [hzero]
    · exact Nat.le_of_lt ((Nat.log2_lt hzero).2 h)
  · obtain ⟨low, high⟩ := significand_bounds h
    have log2_eq : m.units.log2 = 52 + m.shift := by
      have pos : 0 < 2 ^ m.shift := Nat.two_pow_pos _
      have hne : m.units ≠ 0 := by
        have := Nat.mul_le_mul_right (2 ^ m.shift) low
        rw [units_eq]
        omega
      refine (Nat.log2_eq_iff hne).2 ⟨?_, ?_⟩
      · rw [Nat.pow_add]
        exact Nat.mul_le_mul_right _ low
      · rw [show 52 + m.shift + 1 = 53 + m.shift by omega, Nat.pow_add]
        exact Nat.mul_lt_mul_of_pos_right high pos
    omega

/-- A finite magnitude is the nearest one to itself. -/
theorem nearest_units {m : Magnitude} (h : m.IsFinite) : nearest m.units unitsOfOne = m := by
  have pos := unitsOfOne_pos
  have grid : gridExponent m.units unitsOfOne = m.shift := by
    rw [gridExponent, Nat.mul_div_cancel _ pos, log2_units_sub]
  have round : roundDiv (m.units * unitsOfOne) (unitsOfOne * 2 ^ m.shift) = m.significand := by
    have hden : 0 < unitsOfOne * 2 ^ m.shift := Nat.mul_pos pos (Nat.two_pow_pos _)
    rw [units_eq, Nat.mul_comm m.significand, Nat.mul_right_comm, Nat.mul_comm _ unitsOfOne]
    exact roundDiv_mul_left m.significand hden
  apply Fin.ext
  rw [nearest_val, grid, round, shift_mul_add_significand]
  exact Nat.min_eq_left (Nat.le_of_lt h)

end Magnitude

/-! ## Decimal numbers -/

namespace Decimal

theorem toMagnitude_eq_nearest (d : Decimal) :
    d.toMagnitude = .nearest (d.digits * 10 ^ d.exponent.toNat) (10 ^ (-d.exponent).toNat) := by
  unfold toMagnitude
  split
  · rw [show (-d.exponent).toNat = 0 by omega]
    rfl
  · rw [show d.exponent.toNat = 0 by omega, Nat.pow_zero, Nat.mul_one]
    rfl

theorem grid_eq_decimal (n shift unit : Nat) :
    n * 2 ^ (shift - unit) * 5 ^ (unit - shift) * 2 ^ unit =
      n * 2 ^ shift * 10 ^ (unit - shift) := by
  have powers : 2 ^ (shift - unit) * 2 ^ unit = 2 ^ shift * 2 ^ (unit - shift) := by
    rw [← Nat.pow_add, ← Nat.pow_add, show shift - unit + unit = shift + (unit - shift) by omega]
  calc n * 2 ^ (shift - unit) * 5 ^ (unit - shift) * 2 ^ unit
      = n * (2 ^ (shift - unit) * 2 ^ unit) * 5 ^ (unit - shift) := by ac_rfl
    _ = n * 2 ^ shift * (2 ^ (unit - shift) * 5 ^ (unit - shift)) := by rw [powers]; ac_rfl
    _ = n * 2 ^ shift * 10 ^ (unit - shift) := by rw [← Nat.mul_pow]

theorem exact_digits (m : Magnitude) : (exact m).digits = m.significand *
    2 ^ (m.shift - Magnitude.unitExponent) * 5 ^ (Magnitude.unitExponent - m.shift) := rfl

theorem exact_exponent (m : Magnitude) :
    (exact m).exponent = -(Magnitude.unitExponent - m.shift : Nat) := rfl

theorem exact_toMagnitude {m : Magnitude} (h : m.IsFinite) : (exact m).toMagnitude = m := by
  rw [toMagnitude_eq_nearest]
  refine Eq.trans (Magnitude.nearest_eq_of_mul_eq (Nat.pow_pos (by decide))
    Magnitude.unitsOfOne_pos ?_) (Magnitude.nearest_units h)
  rw [exact_digits, exact_exponent, Int.toNat_neg_natCast, Nat.pow_zero, Nat.mul_one, Int.neg_neg,
    Int.toNat_natCast, Magnitude.units_eq, Magnitude.unitsOfOne_eq, grid_eq_decimal]

/-- The fewest digits are read back: each candidate is tested, and the exact number is left. -/
theorem shortest_toMagnitude (tie : Tie) {m : Magnitude} (h : m.IsFinite) :
    (shortest tie m).toMagnitude = m := by
  unfold shortest
  split
  · rename_i hzero
    rw [← exact_toMagnitude h, toMagnitude_eq_nearest, toMagnitude_eq_nearest]
    refine Magnitude.nearest_eq_of_mul_eq (Nat.pow_pos (by decide)) (Nat.pow_pos (by decide)) ?_
    simp [exact, Magnitude.significand, hzero, binade]
  · simp only
    cases hfound : (List.range' 1 17).findSome? fun count =>
      onGrid? tie (fun c => c.toMagnitude = m) (exact m)
        ((Nat.toDigits 10 (exact m).digits).length - count) with
    | none => exact exact_toMagnitude h
    | some c =>
      obtain ⟨count, -, hcount⟩ := List.exists_of_findSome?_eq_some hfound
      simpa using List.find?_some hcount

end Decimal

end RecordRules
