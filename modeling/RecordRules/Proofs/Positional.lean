import RecordRules.Proofs.Nearest

/-!
# Digits beside a point

The digits of a decimal number before and after its point have its value, so they are read to the
same magnitude. Zeros at the end count for nothing.
-/

namespace RecordRules

namespace Decimal

theorem isDigit_of_mem_toDigits {n : Nat} {c : Char} (h : c ∈ Nat.toDigits 10 n) : c.isDigit :=
  Nat.isDigit_of_mem_toDigits (by decide) (by decide) h

/-! ## Zeros at the ends -/

theorem exists_trimZeros_append (digits : List Char) :
    ∃ zeros, digits = trimZeros digits ++ List.replicate zeros '0' := by
  refine ⟨(digits.reverse.takeWhile (· == '0')).length, ?_⟩
  have zeros : digits.reverse.takeWhile (· == '0') =
      List.replicate (digits.reverse.takeWhile (· == '0')).length '0' :=
    List.eq_replicate_iff.2 ⟨rfl, fun c hc => by simpa using List.all_eq_true.1 List.all_takeWhile c hc⟩
  have split := congrArg List.reverse
    (List.takeWhile_append_dropWhile (p := (· == '0')) (l := digits.reverse))
  rw [List.reverse_append, List.reverse_reverse, zeros, List.reverse_replicate] at split
  exact split.symm

theorem ofDigitChars_trimZeros (digits : List Char) :
    Nat.ofDigitChars 10 (trimZeros digits) 0 * 10 ^ digits.length =
      Nat.ofDigitChars 10 digits 0 * 10 ^ (trimZeros digits).length := by
  obtain ⟨zeros, h⟩ := exists_trimZeros_append digits
  generalize trimZeros digits = trimmed at h
  subst h
  rw [Nat.ofDigitChars_append, Nat.ofDigitChars_replicate_zero, List.length_append,
    List.length_replicate]
  calc Nat.ofDigitChars 10 trimmed 0 * 10 ^ (trimmed.length + zeros)
      = Nat.ofDigitChars 10 trimmed 0 * (10 ^ trimmed.length * 10 ^ zeros) :=
        congrArg _ (Nat.pow_add 10 _ _)
    _ = 10 ^ zeros * Nat.ofDigitChars 10 trimmed 0 * 10 ^ trimmed.length := by ac_rfl

theorem ofDigitChars_padded (width n : Nat) : Nat.ofDigitChars 10 (padded width n) 0 = n := by
  simp [padded, Nat.ofDigitChars_append]

theorem length_padded {width n : Nat} (hwidth : 0 < width) (h : n < 10 ^ width) :
    (padded width n).length = width := by
  have := (Nat.length_toDigits_le_iff (by decide) hwidth).2 h
  simp only [padded, List.length_append, List.length_replicate]
  omega

theorem isDigit_of_mem_padded {width n : Nat} {c : Char} (h : c ∈ padded width n) : c.isDigit := by
  rcases List.mem_append.1 h with h | h
  · obtain rfl := List.eq_of_mem_replicate h
    rfl
  · exact isDigit_of_mem_toDigits h

theorem mem_of_mem_trimZeros {digits : List Char} {c : Char} (h : c ∈ trimZeros digits) :
    c ∈ digits := by
  obtain ⟨zeros, hz⟩ := exists_trimZeros_append digits
  rw [hz]
  exact List.mem_append_left _ h

/-! ## Positional digits -/

/-- The digits after the point of `n` parts of `10 ^ places`. -/
def fractionDigits (places n : Nat) : List Char :=
  let fraction := if places = 0 then [] else trimZeros (padded places n)
  if fraction.isEmpty then ['0'] else fraction

theorem fractionDigits_cases {places n : Nat} (h : n < 10 ^ places) :
    (fractionDigits places n = ['0'] ∧ n = 0) ∨
      (0 < places ∧ fractionDigits places n = trimZeros (padded places n) ∧
        fractionDigits places n ≠ []) := by
  unfold fractionDigits
  by_cases hp : places = 0
  · subst hp
    exact .inl ⟨rfl, by simpa using h⟩
  · simp only [if_neg hp]
    by_cases hempty : trimZeros (padded places n) = []
    · have value := ofDigitChars_trimZeros (padded places n)
      rw [hempty, ofDigitChars_padded] at value
      exact .inl ⟨by rw [hempty]; rfl, by simpa using value.symm⟩
    · refine .inr ⟨Nat.pos_of_ne_zero hp, ?_⟩
      simp [hempty]

theorem fractionDigits_ne_nil {places n : Nat} (h : n < 10 ^ places) :
    fractionDigits places n ≠ [] := by
  rcases fractionDigits_cases h with ⟨hzero, -⟩ | ⟨-, -, hne⟩
  · simp [hzero]
  · exact hne

theorem isDigit_of_mem_fractionDigits {places n : Nat} (h : n < 10 ^ places) {c : Char}
    (hc : c ∈ fractionDigits places n) : c.isDigit := by
  rcases fractionDigits_cases h with ⟨hzero, -⟩ | ⟨-, htrim, -⟩
  · rw [hzero] at hc
    obtain rfl := List.mem_singleton.1 hc
    rfl
  · rw [htrim] at hc
    exact isDigit_of_mem_padded (mem_of_mem_trimZeros hc)

theorem ofDigitChars_fractionDigits {places n : Nat} (h : n < 10 ^ places) :
    Nat.ofDigitChars 10 (fractionDigits places n) 0 * 10 ^ places =
      n * 10 ^ (fractionDigits places n).length := by
  rcases fractionDigits_cases h with ⟨hzero, rfl⟩ | ⟨hp, htrim, -⟩
  · rw [hzero]
    simp [Nat.ofDigitChars_cons]
  · have value := ofDigitChars_trimZeros (padded places n)
    rwa [length_padded hp h, ofDigitChars_padded, ← htrim] at value

/-- The positional digits of a number: at least one on either side of the point, and its value. -/
theorem exists_positional (d : Decimal) :
    ∃ whole fraction, d.positional = whole ++ '.' :: fraction ∧ whole ≠ [] ∧ fraction ≠ [] ∧
      (∀ c ∈ whole, c.isDigit) ∧ (∀ c ∈ fraction, c.isDigit) ∧
      (ofPointed whole fraction).toMagnitude = d.toMagnitude := by
  let places := (-d.exponent).toNat
  let number := d.digits * 10 ^ d.exponent.toNat
  -- The layout takes the fraction from `digits`: its exponent is negative or there is no fraction.
  have hrest : d.digits % 10 ^ places = number % 10 ^ places := by
    by_cases hp : places = 0
    · simp [hp, Nat.mod_one]
    · have : d.exponent.toNat = 0 := by omega
      simp [number, this]
  have hlt : number % 10 ^ places < 10 ^ places := Nat.mod_lt _ (Nat.pow_pos (by decide))
  have hvalue := ofDigitChars_fractionDigits hlt
  refine ⟨Nat.toDigits 10 (number / 10 ^ places), fractionDigits places (number % 10 ^ places), ?_,
    Nat.toDigits_ne_nil, fractionDigits_ne_nil hlt, fun c => isDigit_of_mem_toDigits,
    fun c => isDigit_of_mem_fractionDigits hlt, ?_⟩
  · rw [← hrest]
    rfl
  · generalize fractionDigits places (number % 10 ^ places) = fraction at hvalue
    rw [toMagnitude_eq_nearest, toMagnitude_eq_nearest d]
    refine Magnitude.nearest_eq_of_mul_eq (Nat.pow_pos (by decide)) (Nat.pow_pos (by decide)) ?_
    change _ * 10 ^ places = number * _
    simp only [ofPointed, Int.toNat_neg_natCast, Nat.pow_zero, Nat.mul_one, Int.neg_neg,
      Int.toNat_natCast, Nat.ofDigitChars_append, Nat.ofDigitChars_ten_toDigits]
    rw [Nat.ofDigitChars_eq_ofDigitChars_zero, Nat.add_mul, hvalue]
    calc 10 ^ fraction.length * (number / 10 ^ places) * 10 ^ places +
          number % 10 ^ places * 10 ^ fraction.length
        = (number / 10 ^ places * 10 ^ places + number % 10 ^ places) * 10 ^ fraction.length := by
          rw [Nat.add_mul]; ac_rfl
      _ = number * 10 ^ fraction.length := by rw [Nat.div_add_mod']

end Decimal

end RecordRules
