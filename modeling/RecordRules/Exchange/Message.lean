import RecordRules.Exchange.Decoder
import RecordRules.Json.Printer
import RecordRules.Text.Quoted

/-! # How messages name faults of the exchange format -/

namespace RecordRules

def Json.describe : Json → String
  | null => "null"
  | bool b => "boolean `" ++ (if b then "true" else "false") ++ "`"
  | number n => match n with
    | .integer _ _ _ => "integer `" ++ n.text ++ "`"
    | .float _ _ => "floating point `" ++ n.text ++ "`"
  | string s => "string " ++ Text.quoted s
  | array _ => "sequence"
  | object _ => "map"

namespace Exchange

def TreeFault.message : TreeFault → String
  | childrenOfOperand c => "operand node '" ++ c.text ++ "' cannot have children"
  | mixedQuotes field => "literal of field '" ++ field ++ "' mixes single and double quotes"
  | missingChild k => k.keyword ++ " operator node needs both children"
  | operandCombinator k =>
    "operand node carries combinator " ++ k.keyword ++ " instead of a condition"
  | operatorCondition c =>
    "operator node carries condition '" ++ c.text ++ "' instead of AND/OR"

def Fault.Expected.text : Fault.Expected → String
  | node => "struct WireNode"
  | rule => "struct Rule"
  | ruleName => "a string"
  | kindName => "string or map"
  | unit => "unit"

/-- How many items an array has that is written for a node or a rule; for all else none is. -/
def Fault.Expected.itemCount : Fault.Expected → Nat
  | node => 4
  | rule => 2
  | _ => 0

def Fault.message : Fault → String
  | malformed => "malformed JSON"
  | missingField name => "missing field `" ++ name ++ "`"
  | duplicateField name => "duplicate field `" ++ name ++ "`"
  | wrongType found expected => "invalid type: " ++ found.describe ++ ", expected " ++ expected.text
  | missingItem index expected =>
    "invalid length " ++ toString index ++ ", expected " ++ expected.text ++ " with " ++
      toString expected.itemCount ++ " elements"
  | tooManyItems length =>
    "invalid length " ++ toString length ++ ", expected fewer elements in array"
  | trailing => "trailing characters"
  | unknownKind name => "unknown variant `" ++ name ++ "`, expected `operand` or `operator`"
  | notAKind => "expected value"
  | notOneKind => "invalid value: map, expected map with a single key"
  | notAValue => "data did not match any variant of untagged enum WireValue"
  | tree fault => fault.message

end Exchange

end RecordRules
