import RecordRules.Proofs.Outcomes
import RecordRules.Proofs.Overflow

/-!
# Rounding keeps the order

A greater number is never rounded to a smaller float. So two whole numbers compare as their nearest
floats do, unless those are equal.
-/

namespace RecordRules

/-! ## Rounded quotients -/

theorem roundDiv_le_roundDiv {num num' : Nat} (den : Nat) (h : num ≤ num') :
    roundDiv num den ≤ roundDiv num' den := by
  have whole := Nat.div_add_mod num den
  have whole' := Nat.div_add_mod num' den
  have cases := roundDiv_cases num den
  have cases' := roundDiv_cases num' den
  rcases Nat.lt_or_eq_of_le (Nat.div_le_div_right (c := den) h) with less | same
  · obtain ⟨-, up⟩ := roundDiv_bounds num den
    obtain ⟨down', -⟩ := roundDiv_bounds num' den
    omega
  · -- Of two numbers with one whole part, the one with the greater rest is rounded up first.
    rw [same] at whole cases
    have rests : num % den ≤ num' % den := by omega
    omega

theorem log2_le_log2 {n m : Nat} (h : n ≤ m) : n.log2 ≤ m.log2 := by
  by_cases hn : n = 0
  · simp [hn]
  · have hm : m ≠ 0 := by omega
    exact (Nat.le_log2 hm).2 (Nat.le_trans (Nat.log2_self_le hn) h)

namespace Magnitude

/-! ## Magnitudes -/

theorem gridExponent_le_gridExponent {num num' : Nat} (den : Nat) (h : num ≤ num') :
    gridExponent num den ≤ gridExponent num' den := by
  have quotients : num * unitsOfOne / den ≤ num' * unitsOfOne / den :=
    Nat.div_le_div_right (Nat.mul_le_mul_right unitsOfOne h)
  exact Nat.sub_le_sub_right (log2_le_log2 quotients) 52

/-- A rank of a finer grid is no greater than one of the grids after it, where 53 bits are full. -/
theorem rank_le_of_finer {grid grid' rounded rounded' : Nat} (finer : grid < grid')
    (ends : rounded ≤ 2 ^ 53) (starts : 2 ^ 52 ≤ rounded') :
    grid * binade + rounded ≤ grid' * binade + rounded' := by
  rw [binade_eq]
  omega

/-- **Order.** A greater quotient is rounded to a greater magnitude, or to the same one. -/
theorem nearest_le_nearest {num num' den : Nat} (hden : 0 < den) (h : num ≤ num') :
    (nearest num den).val ≤ (nearest num' den).val := by
  have units : num * unitsOfOne ≤ num' * unitsOfOne := Nat.mul_le_mul_right unitsOfOne h
  obtain ⟨high, -⟩ := grid_bounds num hden
  obtain ⟨-, low⟩ := grid_bounds num' hden
  have ranks : gridExponent num den * binade +
        roundDiv (num * unitsOfOne) (den * 2 ^ gridExponent num den) ≤
      gridExponent num' den * binade +
        roundDiv (num' * unitsOfOne) (den * 2 ^ gridExponent num' den) := by
    rcases Nat.lt_or_eq_of_le (gridExponent_le_gridExponent den h) with finer | same
    · have pos : 0 < den * 2 ^ gridExponent num' den := Nat.mul_pos hden (Nat.two_pow_pos _)
      have full : den * 2 ^ gridExponent num' den * 2 ^ 52 ≤ num' * unitsOfOne :=
        low (Nat.zero_lt_of_lt finer)
      rw [Nat.mul_comm, ← Nat.le_div_iff_mul_le pos] at full
      exact rank_le_of_finer finer
        (Nat.le_trans (roundDiv_bounds _ _).2 (Nat.div_lt_of_lt_mul high))
        (Nat.le_trans full (roundDiv_bounds _ _).1)
    · rw [same]
      exact Nat.add_le_add_left (roundDiv_le_roundDiv _ units) _
  rw [nearest_val, nearest_val]
  exact Nat.le_min.2 ⟨Nat.le_trans (Nat.min_le_left _ _) ranks, Nat.min_le_right _ _⟩

end Magnitude

/-! ## Numbers with a sign -/

namespace Binary64

theorem place_nearest_le {den : Nat} (hden : 0 < den) {m n : Int} (h : m ≤ n) :
    place (m < 0) (.nearest m.natAbs den) ≤ place (n < 0) (.nearest n.natAbs den) := by
  unfold place
  by_cases hn : n < 0
  · have sizes := Magnitude.nearest_le_nearest hden (show n.natAbs ≤ m.natAbs by omega)
    rw [if_pos (decide_eq_true hn), if_pos (decide_eq_true (by omega))]
    omega
  · by_cases hm : m < 0
    · rw [if_pos (decide_eq_true hm), if_neg (by simpa using hn)]
      omega
    · have sizes := Magnitude.nearest_le_nearest hden (show m.natAbs ≤ n.natAbs by omega)
      rw [if_neg (by simpa using hm), if_neg (by simpa using hn)]
      omega

theorem position_ofInt_le {m n : Int} (h : m ≤ n) : (ofInt m).position ≤ (ofInt n).position :=
  place_nearest_le Nat.one_pos h

theorem compare?_ofInt (m n : Int) : (ofInt m).compare? (ofInt n) =
    some (compare (ofInt m).position (ofInt n).position) := rfl

theorem sameNumber_ofInt_iff (m n : Int) :
    (ofInt m).sameNumber (ofInt n) ↔ (ofInt m).position = (ofInt n).position := by
  simp [sameNumber, compare?_ofInt]

/-- Two whole numbers whose nearest floats differ compare as those do. -/
theorem compare?_ofInt_of_not_sameNumber {m n : Int} (h : ¬ (ofInt m).sameNumber (ofInt n)) :
    (ofInt m).compare? (ofInt n) = some (compare m n) := by
  rw [sameNumber_ofInt_iff] at h
  rw [compare?_ofInt]
  rcases Int.lt_trichotomy m n with less | rfl | greater
  · have le := position_ofInt_le (Int.le_of_lt less)
    rw [Int.compare_eq_lt.2 less, Int.compare_eq_lt.2 (by omega)]
  · exact absurd rfl h
  · have le := position_ofInt_le (Int.le_of_lt greater)
    rw [Int.compare_eq_gt.2 greater, Int.compare_eq_gt.2 (by omega)]

end Binary64

end RecordRules
