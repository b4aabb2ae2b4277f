import Mathlib.Algebra.Group.Nat.Defs
import RecordRules.Proofs.LiteralText

/-!
# Where rounding runs into infinity

The greatest finite magnitude has 53 bits, all of them set. What lies half of its last place above
it, or farther, is rounded to infinity, and all below is rounded to a finite magnitude.
-/

namespace RecordRules

/-! ## Rounded quotients -/

/-- A quotient is rounded down or up by its rest, and at a half by the parity of its whole part. -/
theorem roundDiv_cases (num den : Nat) :
    (roundDiv num den = num / den ∧
      (2 * (num % den) < den ∨ 2 * (num % den) = den ∧ num / den % 2 = 0)) ∨
    (roundDiv num den = num / den + 1 ∧
      (den < 2 * (num % den) ∨ 2 * (num % den) = den ∧ num / den % 2 = 1)) := by
  unfold roundDiv Tie.choose
  split
  · exact .inl ⟨rfl, .inl (Nat.compare_eq_lt.1 ‹_›)⟩
  · exact .inr ⟨rfl, .inl (Nat.compare_eq_gt.1 ‹_›)⟩
  · have half := Nat.compare_eq_eq.1 ‹_›
    dsimp only
    split
    · exact .inl ⟨rfl, .inr ⟨half, ‹_›⟩⟩
    · exact .inr ⟨rfl, .inr ⟨half, by omega⟩⟩

theorem roundDiv_bounds (num den : Nat) :
    num / den ≤ roundDiv num den ∧ roundDiv num den ≤ num / den + 1 := by
  rcases roundDiv_cases num den with ⟨h, -⟩ | ⟨h, -⟩ <;> omega

/-- A quotient is rounded to less than an even number if it is more than a half below it; a half
below, the tie goes to the even number itself. -/
theorem roundDiv_lt_iff {num den m : Nat} (hden : 0 < den) (even : m % 2 = 0) :
    roundDiv num den < m ↔ 2 * num + den < 2 * (den * m) := by
  have whole := Nat.div_add_mod num den
  have rest := Nat.mod_lt num hden
  have cases := roundDiv_cases num den
  generalize num / den = q at whole cases
  generalize num % den = r at whole rest cases
  generalize roundDiv num den = rounded at cases ⊢
  rcases Nat.lt_or_ge q m with below | above
  · obtain ⟨k, rfl⟩ := Nat.exists_eq_add_of_le below
    rw [Nat.mul_add, Nat.mul_succ]
    cases k with
    | zero => omega
    | succ k =>
      rw [Nat.mul_succ]
      omega
  · obtain ⟨k, rfl⟩ := Nat.exists_eq_add_of_le above
    rw [Nat.mul_add] at whole
    omega

namespace Magnitude

/-! ## Overflow -/

/-- The least number that is rounded to infinity: half of a last place of 53 bits above the greatest
finite magnitude. -/
def overflow : Nat := 2 ^ 1024 - 2 ^ 970

/-- The grid of the greatest finite magnitudes. -/
def lastGrid : Nat := 971 + unitExponent

theorem overflow_units : overflow * (2 * unitsOfOne) + 2 ^ lastGrid = 2 ^ (lastGrid + 54) := by
  have le : 2 ^ lastGrid ≤ 2 ^ (lastGrid + 54) := Nat.pow_le_pow_right (by decide) (by omega)
  rw [overflow, unitsOfOne_eq, lastGrid] at *
  rw [← Nat.pow_succ', Nat.sub_mul, ← Nat.pow_add, ← Nat.pow_add]
  rw [show 1024 + (unitExponent + 1) = 971 + unitExponent + 54 by omega,
    show 970 + (unitExponent + 1) = 971 + unitExponent by omega, Nat.sub_add_cancel le]

/-- The threshold in units: half of a last place below the next power of two. -/
theorem lt_overflow_iff {num den : Nat} : num < overflow * den ↔
    2 * (num * unitsOfOne) + den * 2 ^ lastGrid < den * 2 ^ lastGrid * 2 ^ 54 := by
  have left : 2 * (num * unitsOfOne) = num * (2 * unitsOfOne) := Nat.mul_left_comm 2 num _
  have right : den * (overflow * (2 * unitsOfOne)) = overflow * den * (2 * unitsOfOne) := by
    rw [Nat.mul_left_comm, Nat.mul_assoc]
  have pos : 0 < 2 * unitsOfOne := Nat.mul_pos (by decide) unitsOfOne_pos
  rw [Nat.mul_assoc den, ← Nat.pow_add, ← overflow_units, Nat.mul_add, Nat.add_lt_add_iff_right,
    left, right, Nat.mul_lt_mul_right pos]

/-- A quotient in units has 53 bits on its grid, or fewer on the finest one. -/
theorem grid_bounds (num : Nat) {den : Nat} (hden : 0 < den) :
    num * unitsOfOne < den * 2 ^ gridExponent num den * 2 ^ 53 ∧
      (0 < gridExponent num den →
        den * 2 ^ gridExponent num den * 2 ^ 52 ≤ num * unitsOfOne) := by
  unfold gridExponent
  generalize num * unitsOfOne = n
  have high : n / den < 2 ^ ((n / den).log2 + 1) := Nat.lt_log2_self
  rw [Nat.mul_assoc, Nat.mul_assoc, ← Nat.pow_add, ← Nat.pow_add]
  constructor
  · rw [Nat.mul_comm, ← Nat.div_lt_iff_lt_mul hden]
    exact Nat.lt_of_lt_of_le high (Nat.pow_le_pow_right (by decide) (by omega))
  · intro coarse
    have hne : n / den ≠ 0 := fun h => by simp [h] at coarse
    rw [Nat.mul_comm, ← Nat.le_div_iff_mul_le hden, Nat.sub_add_cancel (by omega)]
    exact Nat.log2_self_le hne

/-- A step to a coarser grid doubles the last place, or more. -/
theorem two_mul_grid_le (den : Nat) {fine coarse : Nat} (h : fine < coarse) :
    2 * (den * 2 ^ fine) ≤ den * 2 ^ coarse := by
  rw [Nat.mul_left_comm, ← Nat.pow_succ']
  exact Nat.mul_le_mul_left den (Nat.pow_le_pow_right (by decide) h)

/-- A rank of 53 bits on a grid is below infinity if the number is below the threshold. -/
theorem rank_lt_infinityRank_iff {n den grid : Nat} (hden : 0 < den)
    (high : n < den * 2 ^ grid * 2 ^ 53) (low : 0 < grid → den * 2 ^ grid * 2 ^ 52 ≤ n) :
    grid * binade + roundDiv n (den * 2 ^ grid) < infinityRank ↔
      2 * n + den * 2 ^ lastGrid < den * 2 ^ lastGrid * 2 ^ 54 := by
  have infinity : infinityRank = (lastGrid + 2) * 2 ^ 52 := rfl
  have pos : 0 < den * 2 ^ grid := Nat.mul_pos hden (Nat.two_pow_pos grid)
  obtain ⟨down, up⟩ := roundDiv_bounds n (den * 2 ^ grid)
  rw [infinity, binade_eq]
  rcases Nat.lt_trichotomy grid lastGrid with fine | rfl | coarse
  · -- Both sides hold: there is room for a carry of the rounding.
    have step := two_mul_grid_le den fine
    have quotient : n / (den * 2 ^ grid) < 2 ^ 53 := Nat.div_lt_of_lt_mul high
    omega
  · have round : roundDiv n (den * 2 ^ lastGrid) < 2 ^ 53 ↔
        2 * n + den * 2 ^ lastGrid < 2 * (den * 2 ^ lastGrid * 2 ^ 53) :=
      roundDiv_lt_iff pos (by decide)
    omega
  · -- Both sides fail: the rank starts at infinity.
    have step := two_mul_grid_le den coarse
    have start := low (by omega)
    have quotient : 2 ^ 52 ≤ n / (den * 2 ^ grid) :=
      (Nat.le_div_iff_mul_le pos).2 (by rwa [Nat.mul_comm])
    omega

/-- **Overflow.** A quotient is rounded to a finite magnitude if and only if it is below the
threshold. -/
theorem isFinite_nearest_iff {num den : Nat} (hden : 0 < den) :
    (nearest num den).IsFinite ↔ num < overflow * den := by
  obtain ⟨high, low⟩ := grid_bounds num hden
  rw [lt_overflow_iff, ← rank_lt_infinityRank_iff hden high low, IsFinite, nearest_val]
  generalize infinityRank = infinity
  omega

end Magnitude

/-! ## Decimal numbers -/

namespace Decimal

/-- A number that is too great for a finite float. -/
def Overflows (d : Decimal) : Prop :=
  Magnitude.overflow * 10 ^ (-d.exponent).toNat ≤ d.digits * 10 ^ d.exponent.toNat

instance (d : Decimal) : Decidable d.Overflows := inferInstanceAs (Decidable (_ ≤ _))

theorem isFinite_toMagnitude_iff (d : Decimal) : d.toMagnitude.IsFinite ↔ ¬ d.Overflows := by
  rw [toMagnitude_eq_nearest, Magnitude.isFinite_nearest_iff (Nat.pow_pos (by decide)), Overflows,
    Nat.not_le]

theorem not_overflows_of_whole {n : Nat} (h : n ≤ 2 ^ 63) : ¬ Overflows ⟨n, 0⟩ := by
  have room : 2 ^ 63 < Magnitude.overflow := by decide +kernel
  simp only [Overflows, Int.neg_zero, Int.toNat_zero, Nat.pow_zero, Nat.mul_one, Nat.not_le]
  exact Nat.lt_of_le_of_lt h room

end Decimal

/-! ## Literals -/

namespace Literal

/-- The number that a text shows, without its sign. -/
def decimal? (cs : List Char) : Option Decimal :=
  match unquoted? cs with
  | some _ => none
  | none =>
    let digits := (Decimal.takeMinus cs).2
    if !digits.isEmpty && digits.all Char.isDigit then some (.ofPointed digits [])
    else (pointed? digits).map fun (whole, fraction) => .ofPointed whole fraction

theorem ofWhole_cases (negative : Bool) (digits : List Char) :
    (∃ n, ofWhole negative digits = integer n ∧ Nat.ofDigitChars 10 digits 0 ≤ 2 ^ 63) ∨
      ofWhole negative digits =
        float (.signed negative (Decimal.ofPointed digits []).toMagnitude) := by
  unfold ofWhole
  generalize Nat.ofDigitChars 10 digits 0 = n
  dsimp only
  generalize hsigned : (if negative then -(n : Int) else n) = signed
  split
  · rename_i range
    have low : Int64.minValue.toInt = -2 ^ 63 := by decide
    have high : Int64.maxValue.toInt = 2 ^ 63 - 1 := by decide
    refine .inl ⟨_, rfl, ?_⟩
    cases negative <;> simp at hsigned <;> omega
  · exact .inr rfl

/-- A text that shows no number is a string; one that does is an integer of 64 bits, or the float
nearest to the number. -/
theorem ofChars_cases (cs : List Char) :
    (decimal? cs = none ∧ ∃ s, ofChars cs = string s) ∨
    ∃ d, decimal? cs = some d ∧
      ((∃ n, ofChars cs = integer n ∧ ¬ d.Overflows) ∨
        ∃ negative, ofChars cs = float (.signed negative d.toMagnitude)) := by
  unfold decimal? ofChars
  cases unquoted? cs with
  | some inner => exact .inl ⟨rfl, _, rfl⟩
  | none =>
    obtain ⟨negative, digits⟩ := Decimal.takeMinus cs
    dsimp only
    split
    · refine .inr ⟨_, rfl, ?_⟩
      rcases ofWhole_cases negative digits with ⟨n, hn, range⟩ | hfloat
      · refine .inl ⟨n, hn, ?_⟩
        simpa [Decimal.ofPointed] using Decimal.not_overflows_of_whole range
      · exact .inr ⟨negative, hfloat⟩
    · cases pointed? digits with
      | none => exact .inl ⟨rfl, _, rfl⟩
      | some parts => exact .inr ⟨_, rfl, .inr ⟨negative, rfl⟩⟩

/-- A text that shows a number too great for a finite float. -/
def Overflows (text : String) : Prop := ∃ d ∈ decimal? text.toList, d.Overflows

instance (text : String) : Decidable (Overflows text) := inferInstanceAs (Decidable (∃ _ ∈ _, _))

theorem isFinite_ofText_iff (text : String) : (ofText text).IsFinite ↔ ¬ Overflows text := by
  unfold ofText Overflows
  rcases ofChars_cases text.toList with ⟨hnone, s, hs⟩ | ⟨d, hd, ⟨n, hn, bounded⟩ | ⟨negative, hx⟩⟩
  · simp [hnone, hs, IsFinite]
  · simp [hd, hn, IsFinite, bounded]
  · rw [hd, hx, IsFinite, Binary64.IsFinite, Decimal.isFinite_toMagnitude_iff]
    simp

/-- No text is read as a float that is not a number. -/
theorem ofChars_ne_nan (cs : List Char) : ofChars cs ≠ float .nan := by
  rcases ofChars_cases cs with ⟨-, s, hs⟩ | ⟨d, -, ⟨n, hn, -⟩ | ⟨negative, hx⟩⟩
  · simp [hs]
  · simp [hn]
  · simp [hx]

end Literal

end RecordRules
