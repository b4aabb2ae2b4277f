import RecordRules.Json.Basic
import RecordRules.Number.Decimal

/-!
# Writing JSON text

A text has no space between its parts. A string escapes the quote, the backslash and the control
characters below the space, and nothing else.
-/

namespace RecordRules.Json

/-! ## Numbers -/

/-- Digits beside a point for leading exponents from -5 to 15, else a power of ten; of two nearest
forms the even one is taken. -/
def magnitudeText (m : Magnitude) : String :=
  let d := Decimal.shortest .toEven m
  String.ofList (if -5 ≤ d.leadingExponent ∧ d.leadingExponent ≤ 15 then d.positional
    else d.scientific)

def Number.text : Number → String
  | integer n _ _ => toString n
  | float (.signed negative m) _ => (if negative then "-" else "") ++ magnitudeText m

/-! ## Strings -/

def escape (c : Char) : List Char :=
  match c with
  | '"' => ['\\', '"']
  | '\\' => ['\\', '\\']
  | '\x08' => ['\\', 'b']
  | '\t' => ['\\', 't']
  | '\n' => ['\\', 'n']
  | '\x0c' => ['\\', 'f']
  | '\r' => ['\\', 'r']
  | c =>
    if c.toNat < 0x20 then '\\' :: 'u' :: '0' :: '0' ::
      [Nat.digitChar (c.toNat / 16), Nat.digitChar (c.toNat % 16)]
    else [c]

def stringText (s : String) : String :=
  String.ofList ('"' :: s.toList.flatMap escape ++ ['"'])

/-! ## Values -/

mutual

/-- The pieces of text that a value is written in, before those of `rest`. -/
def pieces : Json → List String → List String
  | null, rest => "null" :: rest
  | bool b, rest => (if b then "true" else "false") :: rest
  | number n, rest => n.text :: rest
  | string s, rest => stringText s :: rest
  | array [], rest => "[]" :: rest
  | array (j :: items), rest => "[" :: j.pieces (itemPieces items rest)
  | object [], rest => "\x7b\x7d" :: rest
  | object ((key, j) :: members), rest =>
    "\x7b" :: stringText key :: ":" :: j.pieces (memberPieces members rest)

/-- Items after the first one and the end of the array. -/
def itemPieces : List Json → List String → List String
  | [], rest => "]" :: rest
  | j :: items, rest => "," :: j.pieces (itemPieces items rest)

/-- Members after the first one and the end of the object. -/
def memberPieces : List (String × Json) → List String → List String
  | [], rest => "\x7d" :: rest
  | (key, j) :: members, rest =>
    "," :: stringText key :: ":" :: j.pieces (memberPieces members rest)

end

def text (j : Json) : String := String.join (j.pieces [])

end RecordRules.Json
