import RecordRules.Json.Basic
import RecordRules.Number.Decimal

/-!
# Numbers in JSON text

Whole numbers of 64 bits are read exactly. All others are read in two rounded steps, the digits and
then a power of ten, so the result can miss the nearest number by a little.
-/

namespace RecordRules.Json

/-- The parts of a written number: a sign, digits, digits after a point and a written exponent. -/
structure NumberText where
  negative : Bool
  whole : List Char
  fraction : Option (List Char)
  exponent : Option Int

namespace NumberText

/-- Takes digits into a significand as long as 64 bits hold it, and gives the digits left over. -/
def gather (significand : Nat) : List Char → Nat × List Char
  | [] => (significand, [])
  | d :: rest =>
    let next := 10 * significand + (d.toNat - '0'.toNat)
    if next < UInt64.size then gather next rest else (significand, d :: rest)

def toDecimal (t : NumberText) : Decimal :=
  let fraction := t.fraction.getD []
  let (head, dropped) := gather 0 t.whole
  let (significand, left) := gather head fraction
  ⟨significand, t.exponent.getD 0 + dropped.length - (fraction.length - left.length : Nat)⟩

/-- The greatest power of ten that is a number. -/
def maxPower : Nat := 308

def powerOfTen (k : Nat) : Magnitude := .ofNat (Nat.pow 10 k)

/-- Divides by the greatest power of ten so many times, or until nothing is left. -/
def divideSteps : Nat → Magnitude → Magnitude
  | 0, m => m
  | n + 1, m => if m.val = 0 then m else divideSteps n (m.div (powerOfTen maxPower))

/-- Divides by `10 ^ k`, no more than the greatest power at a time. -/
def divideByPower (m : Magnitude) (k : Nat) : Magnitude :=
  let steps := (k - 1) / maxPower
  let m := divideSteps steps m
  if m.val = 0 then m else m.div (powerOfTen (k - steps * maxPower))

/-- The rounded significand, then multiplied or divided by the power of ten and rounded again. -/
def magnitude? (d : Decimal) : Option Magnitude :=
  let m := Magnitude.ofNat d.digits
  let k := d.exponent.natAbs
  if m.val = 0 then some m
  else if d.exponent < 0 then some (divideByPower m k)
  else if k ≤ maxPower then some (m.mul (powerOfTen k))
  else none

/-- The integer that is written without point, exponent or a sign before zero. -/
def integer? (t : NumberText) : Option Int :=
  let n : Int := Nat.ofDigitChars 10 t.whole 0
  if t.fraction.isSome || t.exponent.isSome || (t.negative && n = 0) then none
  else some (if t.negative then -n else n)

/-- An integer is kept if 64 bits hold it; any other number becomes a fraction, if it is not too
large. -/
def toNumber? (t : NumberText) : Option Number :=
  match t.integer?.bind Number.ofInt? with
  | some n => some n
  | none => (magnitude? t.toDecimal).bind fun m => Number.ofBinary64? (.signed t.negative m)

end NumberText

end RecordRules.Json
