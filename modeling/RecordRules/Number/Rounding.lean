/-!
# Rounding a quotient to a natural number

Main statements: a whole quotient is kept, and a common factor of both numbers changes nothing.
-/

namespace RecordRules

/-- Which of two equally near neighbours is taken. -/
inductive Tie
  | toEven
  | up
  deriving DecidableEq, Repr

/-- The nearer of `n` and `n + 1` to the value that is `rest / unit` of the way between them. -/
def Tie.choose (tie : Tie) (n rest unit : Nat) : Nat :=
  match compare (2 * rest) unit with
  | .lt => n
  | .gt => n + 1
  | .eq => match tie with
    | .toEven => if n % 2 = 0 then n else n + 1
    | .up => n + 1

/-- The natural number nearest to `num / den`, a half to the even neighbour. -/
def roundDiv (num den : Nat) : Nat :=
  Tie.toEven.choose (num / den) (num % den) den

theorem roundDiv_mul_left (n : Nat) {den : Nat} (h : 0 < den) : roundDiv (den * n) den = n := by
  have : compare 0 den = .lt := Nat.compare_eq_lt.2 h
  simp [roundDiv, Tie.choose, Nat.mul_div_cancel_left n h, this]

theorem roundDiv_mul_mul_left (num den : Nat) {k : Nat} (h : 0 < k) :
    roundDiv (k * num) (k * den) = roundDiv num den := by
  have : compare (2 * (k * (num % den))) (k * den) = compare (2 * (num % den)) den := by
    rw [Nat.mul_left_comm]
    simp [Nat.compare_eq_ite_lt, Nat.mul_lt_mul_left h]
  simp [roundDiv, Tie.choose, Nat.mul_div_mul_left _ _ h, Nat.mul_mod_mul_left, this]

end RecordRules
