import RecordRules.Number.Binary64

/-!
# Decimal numbers and their digits

A decimal number is a natural number of digits times a power of ten. A decimal text is read to the
nearest magnitude, and a magnitude is written with the fewest digits that are read back to it.
-/

namespace RecordRules

/-- The number `digits * 10 ^ exponent`. -/
structure Decimal where
  digits : Nat
  exponent : Int
  deriving DecidableEq, Repr

namespace Decimal

def toMagnitude (d : Decimal) : Magnitude :=
  if 0 ≤ d.exponent then .nearest (d.digits * Nat.pow 10 d.exponent.toNat) 1
  else .nearest d.digits (Nat.pow 10 (-d.exponent).toNat)

/-- Whether a text starts with a minus sign, and the text after it. -/
def takeMinus : List Char → Bool × List Char
  | '-' :: rest => (true, rest)
  | cs => (false, cs)

/-- Takes a minus sign, or a plus sign that changes nothing. -/
def takeSign : List Char → Bool × List Char
  | '+' :: rest => (false, rest)
  | cs => takeMinus cs

/-- The number read from digits before and after a decimal point. -/
def ofPointed (whole fraction : List Char) : Decimal :=
  ⟨Nat.ofDigitChars 10 (whole ++ fraction) 0, -fraction.length⟩

/-! ## The fewest digits -/

/-- The decimal number that a finite magnitude is. -/
def exact (m : Magnitude) : Decimal :=
  let places := Magnitude.unitExponent - m.shift
  ⟨m.significand * Nat.pow 2 (m.shift - Magnitude.unitExponent) * Nat.pow 5 places, -places⟩

/-- The nearer of the two neighbours of `d` with `places` digits dropped, among those that `keeps`
admits. -/
def onGrid? (tie : Tie) (keeps : Decimal → Bool) (d : Decimal) (places : Nat) : Option Decimal :=
  let unit := Nat.pow 10 places
  let below := d.digits / unit
  let near := tie.choose below (d.digits % unit) unit
  let far := if near = below then below + 1 else below
  [near, far].map (⟨·, d.exponent + places⟩) |>.find? keeps

/-- The fewest digits, up to 17, that are read back to a finite magnitude, nearest to it. -/
def shortest (tie : Tie) (m : Magnitude) : Decimal :=
  if m.val = 0 then ⟨0, 0⟩
  else
    let d := exact m
    let length := (Nat.toDigits 10 d.digits).length
    let keeps (c : Decimal) : Bool := c.toMagnitude = m
    ((List.range' 1 17).findSome? fun count => onGrid? tie keeps d (length - count)).getD d

/-! ## Layouts -/

def trimZeros (digits : List Char) : List Char :=
  (digits.reverse.dropWhile (· == '0')).reverse

/-- Digits in `width` places, zeros in front. -/
def padded (width n : Nat) : List Char :=
  let digits := Nat.toDigits 10 n
  List.replicate (width - digits.length) '0' ++ digits

/-- Digits before and after a point, at least one on either side. -/
def positional (d : Decimal) : List Char :=
  let places := (-d.exponent).toNat
  let unit := Nat.pow 10 places
  let whole := d.digits * Nat.pow 10 d.exponent.toNat / unit
  let fraction := if places = 0 then [] else trimZeros (padded places (d.digits % unit))
  Nat.toDigits 10 whole ++ '.' :: (if fraction.isEmpty then ['0'] else fraction)

def leadingExponent (d : Decimal) : Int :=
  d.exponent + (Nat.toDigits 10 d.digits).length - 1

/-- One digit, the others after a point if there are any, and a signed exponent. -/
def scientific (d : Decimal) : List Char :=
  let digits := trimZeros (Nat.toDigits 10 d.digits)
  let e := d.leadingExponent
  let point := if digits.length ≤ 1 then [] else ['.']
  digits.take 1 ++ point ++ digits.drop 1 ++ 'e' :: (if e < 0 then '-' else '+') ::
    Nat.toDigits 10 e.natAbs

end Decimal

end RecordRules
