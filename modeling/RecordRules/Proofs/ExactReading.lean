import RecordRules.Proofs.WrittenNumber

/-!
# JSON numbers that are read exactly

The two rounded steps of the reader give the nearest number where neither the digits nor the power
of ten is rounded: for digits below `2 ^ 53` and powers of ten up to 22.
-/

namespace RecordRules

namespace Magnitude

/-! ## Magnitudes of 53 bits -/

theorem exists_of_leading_bit {a shift : Nat} (low : 2 ^ 52 ≤ a) (high : a < 2 ^ 53)
    (hshift : shift ≤ 2045) : ∃ m : Magnitude, m.IsFinite ∧ m.units = a * 2 ^ shift := by
  have binade : binade = 4503599627370496 := rfl
  have hrank : shift * 4503599627370496 + a < infinityRank := by
    rw [infinityRank, binade]
    omega
  -- The rank: a whole binade for each step of the grid, then the place in the last one.
  refine ⟨⟨shift * 4503599627370496 + a, Nat.lt_succ_of_lt hrank⟩, hrank, ?_⟩
  have quotient : (shift * 4503599627370496 + a) / 4503599627370496 = shift + 1 := by omega
  rw [units_eq, Magnitude.shift, significand, binade]
  dsimp only
  rw [quotient, if_neg (by omega), Nat.add_sub_cancel]
  congr 1
  omega

theorem exists_units {a shift : Nat} (ha : a < 2 ^ 53) (hshift : shift ≤ 2045) :
    ∃ m : Magnitude, m.IsFinite ∧ m.units = a * 2 ^ shift := by
  induction shift generalizing a with
  | zero =>
    by_cases low : 2 ^ 52 ≤ a
    · exact exists_of_leading_bit low ha hshift
    · have hrank : a < infinityRank := Nat.lt_of_lt_of_le ha (by decide)
      refine ⟨⟨a, Nat.lt_succ_of_lt hrank⟩, hrank, ?_⟩
      have hbinade : (⟨a, Nat.lt_succ_of_lt hrank⟩ : Magnitude).val < binade := by
        rw [binade_eq]
        dsimp only
        omega
      rw [units_eq, shift_of_lt hbinade, significand, if_pos hbinade]
  | succ shift ih =>
    by_cases low : 2 ^ 52 ≤ a
    · exact exists_of_leading_bit low ha hshift
    · -- One bit moves from the power of two to the number.
      obtain ⟨m, hfinite, hunits⟩ := ih (a := a * 2) (by omega) (by omega)
      refine ⟨m, hfinite, ?_⟩
      rw [hunits, Nat.pow_succ, Nat.mul_assoc, Nat.mul_comm 2]

/-- A natural number of 53 bits, times a power of two, is a magnitude. -/
theorem units_ofNat {n a e : Nat} (h : n = a * 2 ^ e) (ha : a < 2 ^ 53) (he : e ≤ 971) :
    (ofNat n).units = n * unitsOfOne := by
  have bound : e + unitExponent ≤ 2045 := by
    rw [unitExponent]
    omega
  obtain ⟨m, hfinite, hunits⟩ := exists_units ha bound
  have whole : m.units = n * unitsOfOne := by
    rw [hunits, h, unitsOfOne_eq, Nat.pow_add, Nat.mul_assoc]
  have nearest : ofNat n = m := by
    calc ofNat n = nearest m.units unitsOfOne := by
          refine nearest_eq_of_mul_eq Nat.one_pos unitsOfOne_pos ?_
          rw [whole, Nat.mul_one]
      _ = m := nearest_units hfinite
  rw [nearest, whole]

end Magnitude

namespace Json.NumberText

open Magnitude

theorem units_powerOfTen {k : Nat} (h : k ≤ 22) : (powerOfTen k).units = 10 ^ k * unitsOfOne := by
  have split : 10 ^ k = 5 ^ k * 2 ^ k := by rw [← Nat.mul_pow]
  have small : 5 ^ k < 2 ^ 53 :=
    Nat.lt_of_le_of_lt (Nat.pow_le_pow_right (by decide) h) (by decide)
  exact units_ofNat split small (by omega)

/-- Digits and a power of ten that are both magnitudes. -/
def IsSimple (d : Decimal) : Prop := d.digits < 2 ^ 53 ∧ d.exponent.natAbs ≤ 22

instance (d : Decimal) : Decidable (IsSimple d) := inferInstanceAs (Decidable (_ ∧ _))

theorem mul_powerOfTen {n k : Nat} (hn : n < 2 ^ 53) (hk : k ≤ 22) :
    (ofNat n).mul (powerOfTen k) = nearest (n * 10 ^ k) 1 := by
  have units : (ofNat n).units = n * unitsOfOne := units_ofNat (e := 0) (by omega) hn (by decide)
  rw [Magnitude.mul, units, units_powerOfTen hk]
  refine nearest_eq_of_mul_eq (Nat.mul_pos unitsOfOne_pos unitsOfOne_pos) Nat.one_pos ?_
  rw [Nat.mul_one]
  generalize unitsOfOne = unit
  ac_rfl

theorem div_powerOfTen {n k : Nat} (hn : n < 2 ^ 53) (hk : k ≤ 22) :
    (ofNat n).div (powerOfTen k) = nearest n (10 ^ k) := by
  have units : (ofNat n).units = n * unitsOfOne := units_ofNat (e := 0) (by omega) hn (by decide)
  rw [Magnitude.div, units, units_powerOfTen hk]
  refine nearest_eq_of_mul_eq (Nat.mul_pos (Nat.pow_pos (by decide)) unitsOfOne_pos)
    (Nat.pow_pos (by decide)) ?_
  generalize unitsOfOne = unit
  ac_rfl

theorem divideByPower_of_le (m : Magnitude) {k : Nat} (h : k ≤ 22) :
    divideByPower m k = if m.val = 0 then m else m.div (powerOfTen k) := by
  have steps : (k - 1) / maxPower = 0 := Nat.div_eq_of_lt (by rw [maxPower]; omega)
  simp only [divideByPower, steps, divideSteps, Nat.zero_mul, Nat.sub_zero]

/-- **Exact reading.** Simple digits are read to the nearest magnitude. -/
theorem magnitude?_of_isSimple {d : Decimal} (h : IsSimple d) :
    magnitude? d = some d.toMagnitude := by
  obtain ⟨digits, power⟩ := h
  unfold magnitude?
  dsimp only
  split
  · -- A significand of rank zero comes from no digits.
    rename_i hzero
    have units : (ofNat d.digits).units = d.digits * unitsOfOne :=
      units_ofNat (e := 0) (by omega) digits (by decide)
    have noUnits : (ofNat d.digits).units = 0 := by
      rw [units_eq, significand, hzero, if_pos (show 0 < binade from Nat.two_pow_pos 52),
        Nat.zero_mul]
    have hdigits : d.digits = 0 := by
      have := unitsOfOne_pos
      rw [noUnits, eq_comm, Nat.mul_eq_zero] at units
      omega
    rw [toMagnitude_of_digits_eq_zero hdigits, hdigits]
  · rename_i hzero
    split
    · rename_i hnegative
      rw [divideByPower_of_le _ power, if_neg hzero, div_powerOfTen digits power,
        Decimal.toMagnitude_eq_nearest]
      have hpower : d.exponent.toNat = 0 ∧ (-d.exponent).toNat = d.exponent.natAbs := by omega
      rw [hpower.1, hpower.2, Nat.pow_zero, Nat.mul_one]
    · rename_i hnegative
      have hpower : d.exponent.toNat = d.exponent.natAbs ∧ (-d.exponent).toNat = 0 := by omega
      rw [if_pos (by rw [maxPower]; omega), mul_powerOfTen digits power,
        Decimal.toMagnitude_eq_nearest, hpower.1, hpower.2, Nat.pow_zero]

/-! ## Digits that 64 bits hold -/

theorem le_ofDigitChars (digits : List Char) (n : Nat) : n ≤ Nat.ofDigitChars 10 digits n := by
  rw [Nat.ofDigitChars_eq_ofDigitChars_zero]
  have := Nat.le_mul_of_pos_left n (Nat.pow_pos (n := digits.length) (show 0 < 10 by decide))
  omega

theorem gather_of_lt {digits : List Char} {n : Nat}
    (h : Nat.ofDigitChars 10 digits n < UInt64.size) :
    gather n digits = (Nat.ofDigitChars 10 digits n, []) := by
  induction digits generalizing n with
  | nil => rfl
  | cons c digits ih =>
    rw [Nat.ofDigitChars_cons] at h ⊢
    have := le_ofDigitChars digits (10 * n + (c.toNat - '0'.toNat))
    rw [gather, if_pos (Nat.lt_of_le_of_lt this h), ih h]

theorem toDecimal_eq_value {t : NumberText} (h : t.value.digits < UInt64.size) :
    t.toDecimal = t.value := by
  have all : t.value.digits =
      Nat.ofDigitChars 10 (t.fraction.getD []) (Nat.ofDigitChars 10 t.whole 0) := by
    rw [value, Nat.ofDigitChars_append]
  rw [all] at h
  have whole : gather 0 t.whole = (Nat.ofDigitChars 10 t.whole 0, []) :=
    gather_of_lt (Nat.lt_of_le_of_lt (le_ofDigitChars _ _) h)
  have fraction := gather_of_lt h
  simp only [toDecimal, whole, fraction]
  rw [value, Nat.ofDigitChars_append]
  simp

end Json.NumberText

/-! ## Floats with few digits -/

namespace Json.Number

open NumberText (IsSimple)

/-- The text of a number has simple digits. -/
def IsShort (n : Number) : Prop :=
  ∃ parts ∈ Reader.number? n.text.toList, IsSimple parts.1.value

instance (n : Number) : Decidable n.IsShort := inferInstanceAs (Decidable (∃ _ ∈ _, _))

/-- A float whose text is short comes back as it is. -/
theorem reread?_of_isShort {x : Binary64} {h : x.IsFinite} (short : (float x h).IsShort) :
    (float x h).reread? = some (float x h) := by
  cases x with
  | nan => exact False.elim h
  | signed negative m =>
    obtain ⟨t, read, hspells, hreread⟩ := reread?_float h
    obtain ⟨parts, hparts, simple⟩ := short
    obtain rfl : (t, []) = parts := Option.some.inj (read.symm.trans hparts)
    have decimal : t.toDecimal = t.value :=
      NumberText.toDecimal_eq_value (Nat.lt_of_lt_of_le simple.1 (by decide))
    rw [hreread, decimal, NumberText.magnitude?_of_isSimple simple, hspells.magnitude,
      Option.bind_some]
    exact dif_pos h

end Json.Number

end RecordRules
