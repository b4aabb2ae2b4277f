import RecordRules.Combinator
import RecordRules.Comparator

/-! # Tokens of rule text -/

namespace RecordRules

inductive Token.Kind
  | openParen
  | closeParen
  | comparator (c : Comparator)
  | combinator (k : Combinator)
  /-- The sign `&&`, which joins nothing in a rule. -/
  | doubleAmpersand
  /-- The sign `||`, which joins nothing in a rule. -/
  | doubleBar
  /-- The sign `!` alone. -/
  | exclamation
  /-- A field name, a number or another bare word. -/
  | word (text : String)
  /-- A string with its quotes. -/
  | quoted (text : String)
  deriving DecidableEq, Repr

/-- A token and the byte at which it starts. -/
structure Token where
  kind : Token.Kind
  offset : Nat
  deriving DecidableEq, Repr

namespace Token

def Kind.text : Kind → String
  | openParen => "("
  | closeParen => ")"
  | comparator c => c.symbol
  | combinator k => k.keyword
  | doubleAmpersand => "&&"
  | doubleBar => "||"
  | exclamation => "!"
  | word text | quoted text => text

def describe (t : Token) : String :=
  "'" ++ t.kind.text ++ "' at offset " ++ toString t.offset

end Token

end RecordRules
