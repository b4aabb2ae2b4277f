/-! # Combinators -/

namespace RecordRules

/-- How the results of two conditions become one. -/
inductive Combinator
  | and
  | or
  deriving DecidableEq, Repr

namespace Combinator

def all : List Combinator := [and, or]

/-- The keyword in rule text and in the exchange format. -/
def keyword : Combinator → String
  | and => "AND"
  | or => "OR"

def ofKeyword? (keyword : String) : Option Combinator := all.find? (·.keyword == keyword)

def apply : Combinator → Bool → Bool → Bool
  | and, a, b => a && b
  | or, a, b => a || b

theorem ofKeyword?_keyword (k : Combinator) : ofKeyword? k.keyword = some k := by cases k <;> rfl

end Combinator

end RecordRules
