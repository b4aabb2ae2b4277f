/-!
# Comparators

A comparator says which orderings of a value against a literal satisfy a condition.
-/

namespace RecordRules

inductive Comparator
  | gt
  | lt
  | eq
  | lteq
  | gteq
  | neq
  deriving DecidableEq, Repr

namespace Comparator

def all : List Comparator := [gt, lt, eq, lteq, gteq, neq]

/-- The name in the exchange format and in messages. -/
def name : Comparator → String
  | gt => "gt"
  | lt => "lt"
  | eq => "eq"
  | lteq => "lteq"
  | gteq => "gteq"
  | neq => "neq"

def symbol : Comparator → String
  | gt => ">"
  | lt => "<"
  | eq => "="
  | lteq => "<="
  | gteq => ">="
  | neq => "!="

def ofName? (name : String) : Option Comparator := all.find? (·.name == name)

/-- The comparator of a symbol; `=>` is another spelling of `>=`. -/
def ofSymbol? (symbol : String) : Option Comparator :=
  if symbol = "=>" then some gteq else all.find? (·.symbol == symbol)

/-- Whether a condition holds of a value that is `o` to the literal. -/
def holds : Comparator → Ordering → Bool
  | gt, o => o == .gt
  | lt, o => o == .lt
  | eq, o => o == .eq
  | lteq, o => o != .gt
  | gteq, o => o != .lt
  | neq, o => o != .eq

theorem ofName?_name (c : Comparator) : ofName? c.name = some c := by cases c <;> rfl

theorem ofSymbol?_symbol (c : Comparator) : ofSymbol? c.symbol = some c := by cases c <;> rfl

end Comparator

end RecordRules
