import RecordRules.Number.Rounding

/-!
# Numbers of 64-bit binary floating point

A magnitude is known by its rank: its place in the increasing row of all magnitudes, from zero over
the subnormal and the normal numbers to infinity. So the order of magnitudes is the order of ranks,
and rounding to nearest is one rounded quotient.
-/

namespace RecordRules

/-- The number of ranks of one binade. -/
def binade : Nat := Nat.pow 2 52

def infinityRank : Nat := 2047 * binade

/-- A magnitude: zero, a positive number or infinity. -/
abbrev Magnitude := Fin (infinityRank + 1)

namespace Magnitude

/-- The least positive magnitude is two to the power of minus this. -/
def unitExponent : Nat := 1074

/-- How many units of the least positive magnitude make one. -/
def unitsOfOne : Nat := Nat.pow 2 unitExponent

/-- The significand, with the leading bit that normal numbers have. -/
def significand (m : Magnitude) : Nat := if m < binade then m else binade + m % binade

/-- The power of two of the last place of the significand, in units of the least magnitude. -/
def shift (m : Magnitude) : Nat := m / binade - 1

/-- A finite magnitude as a multiple of the least positive one. -/
def units (m : Magnitude) : Nat := m.significand * Nat.pow 2 m.shift

def infinity : Magnitude := ⟨infinityRank, Nat.lt_succ_self _⟩

def IsFinite (m : Magnitude) : Prop := m.val < infinityRank

instance (m : Magnitude) : Decidable m.IsFinite := inferInstanceAs (Decidable (_ < _))

/-- The exponent of the grid on which `num / den` is rounded, counted from the finest grid. -/
def gridExponent (num den : Nat) : Nat := (num * unitsOfOne / den).log2 - 52

def nearest (num den : Nat) : Magnitude :=
  let grid := gridExponent num den
  let rank := grid * binade + roundDiv (num * unitsOfOne) (den * Nat.pow 2 grid)
  ⟨min rank infinityRank, by omega⟩

def ofNat (n : Nat) : Magnitude := nearest n 1

def mul (a b : Magnitude) : Magnitude := nearest (a.units * b.units) (unitsOfOne * unitsOfOne)

def div (a b : Magnitude) : Magnitude := nearest a.units b.units

end Magnitude

/-- A binary floating-point number; all that are not a number are one. -/
inductive Binary64
  | nan
  | signed (negative : Bool) (magnitude : Magnitude)
  deriving DecidableEq

namespace Binary64

def IsFinite : Binary64 → Prop
  | nan => False
  | signed _ m => m.IsFinite

instance (x : Binary64) : Decidable x.IsFinite :=
  match x with
  | nan => .isFalse id
  | signed _ m => inferInstanceAs (Decidable m.IsFinite)

def ofInt (n : Int) : Binary64 := signed (n < 0) (Magnitude.ofNat n.natAbs)

/-- The place of a number in the order of all numbers; both zeros have place 0. -/
def place (negative : Bool) (m : Magnitude) : Int := if negative then -m.val else m.val

/-- How two numbers compare; with `nan` nothing compares. -/
def compare? : Binary64 → Binary64 → Option Ordering
  | signed s m, signed t n => some (compare (place s m) (place t n))
  | _, _ => none

/-- Equality as numbers: the two zeros are equal, and `nan` is not equal to itself. -/
def sameNumber (x y : Binary64) : Bool := x.compare? y = some .eq

theorem sameNumber_signed_iff {s t : Bool} {m n : Magnitude} :
    (signed s m).sameNumber (signed t n) ↔ place s m = place t n := by
  simp [sameNumber, compare?]

end Binary64

end RecordRules
