import RecordRules.Number.Decimal

/-!
# Numbers in scientific notation

A sign, digits with an optional point and an optional power of ten, or the name of a number that is
not finite; the number read is the nearest one.
-/

namespace RecordRules

namespace Decimal

/-- No finite magnitude above zero has a leading digit of a greater exponent, up or down. -/
def farExponent : Int := 400

/-- The nearest magnitude; the power of ten is computed only where it matters. -/
def nearestMagnitude (d : Decimal) : Magnitude :=
  if d.digits = 0 || d.leadingExponent < -farExponent then ⟨0, by decide⟩
  else if farExponent < d.leadingExponent then .infinity
  else d.toMagnitude

/-- An exponent: a sign if there is one, and digits. -/
def exponent? (cs : List Char) : Option Int :=
  let (negative, digits) := takeSign cs
  if digits.isEmpty || !digits.all Char.isDigit then none
  else
    let n : Int := Nat.ofDigitChars 10 digits 0
    some (if negative then -n else n)

/-- Digits with an optional point and an optional exponent. -/
def ofChars? (cs : List Char) : Option Decimal := do
  let isMark (c : Char) : Bool := c == 'e' || c == 'E'
  let mantissa := cs.takeWhile (!isMark ·)
  let e ← match cs.drop mantissa.length with
    | [] => some 0
    | _ :: rest => exponent? rest
  let whole := mantissa.takeWhile Char.isDigit
  let fraction ← match mantissa.drop whole.length with
    | [] => some []
    | '.' :: rest => if rest.all Char.isDigit then some rest else none
    | _ => none
  if (whole ++ fraction).isEmpty then none
  else
    let d := ofPointed whole fraction
    some { d with exponent := d.exponent + e }

end Decimal

/-- The number nearest to a text in scientific notation. -/
def Binary64.ofText? (text : String) : Option Binary64 :=
  let (negative, cs) := Decimal.takeSign text.toList
  let name := String.ofList (cs.map Char.toLower)
  if name = "nan" then some .nan
  else if name = "inf" || name = "infinity" then some (.signed negative .infinity)
  else (Decimal.ofChars? cs).map fun d => .signed negative d.nearestMagnitude

end RecordRules
