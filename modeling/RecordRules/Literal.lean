import RecordRules.Number.Decimal

/-!
# Literals

A literal is a whole number of 64 bits, a binary fraction or a string. Its text is written so that
it is read back to the same literal.
-/

namespace RecordRules

inductive Literal
  | integer (n : Int64)
  | float (x : Binary64)
  | string (s : String)
  deriving DecidableEq

namespace Literal

/-- Equality as values: the two zeros are equal, and a float that is not a number has no equal. -/
def sameValue : Literal → Literal → Bool
  | integer m, integer n => m == n
  | float x, float y => x.sameNumber y
  | string s, string t => s == t
  | _, _ => false

def typeName : Literal → String
  | integer _ | float _ => "number"
  | string _ => "string"

/-! ## Reading -/

/-- The text between two quotes `q` at its ends. -/
def unquotedBy? (q : Char) (cs : List Char) : Option (List Char) :=
  match cs with
  | c :: rest => if c = q ∧ rest.getLast? = some q then some rest.dropLast else none
  | [] => none

def unquoted? (cs : List Char) : Option (List Char) :=
  (unquotedBy? '\'' cs).or (unquotedBy? '"' cs)

/-- The whole number, or its nearest float when 64 bits do not hold it. -/
def ofWhole (negative : Bool) (digits : List Char) : Literal :=
  let n : Int := Nat.ofDigitChars 10 digits 0
  let n := if negative then -n else n
  if Int64.minValue.toInt ≤ n ∧ n ≤ Int64.maxValue.toInt then integer (Int64.ofInt n)
  else float (.signed negative (Decimal.ofPointed digits []).toMagnitude)

/-- The float nearest to a number with a point. -/
def ofPointed (negative : Bool) (whole fraction : List Char) : Literal :=
  float (.signed negative (Decimal.ofPointed whole fraction).toMagnitude)

/-- The digits before and after the only point, one digit at least. -/
def pointed? (cs : List Char) : Option (List Char × List Char) :=
  match cs.span Char.isDigit with
  | (whole, '.' :: fraction) =>
    if fraction.all Char.isDigit && !(whole ++ fraction).isEmpty then some (whole, fraction)
    else none
  | _ => none

/-- The literal that a word or a quoted text stands for: quoted text is a string, digits with an
optional sign and an optional point are a number, all else is a string. -/
def ofChars (cs : List Char) : Literal :=
  match unquoted? cs with
  | some inner => string (String.ofList inner)
  | none =>
    let (negative, digits) := Decimal.takeMinus cs
    if !digits.isEmpty && digits.all Char.isDigit then ofWhole negative digits
    else match pointed? digits with
      | some (whole, fraction) => ofPointed negative whole fraction
      | none => string (String.ofList cs)

def ofText (text : String) : Literal := ofChars text.toList

/-! ## Writing -/

/-- All digits of a float and a point, the fewest that are read back; a tie goes up. -/
def floatText : Binary64 → String
  | .nan => "NaN"
  | .signed negative m =>
    (if negative then "-" else "") ++
      if m.IsFinite then String.ofList (Decimal.shortest .up m).positional else "inf"

/-- Single quotes around a string, or double quotes when it holds a single quote. -/
def quote (s : String) : String :=
  if s.toList.contains '\'' then "\"" ++ s ++ "\"" else "'" ++ s ++ "'"

def text : Literal → String
  | integer n => toString n.toInt
  | float x => floatText x
  | string s => quote s

/-- A string that holds both kinds of quote has no text that rule text can carry. -/
def mixesQuotes : Literal → Bool
  | string s => s.toList.contains '\'' && s.toList.contains '"'
  | _ => false

end Literal

end RecordRules
