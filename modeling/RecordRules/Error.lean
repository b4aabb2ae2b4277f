import RecordRules.Evaluation
import RecordRules.Exchange.Message
import RecordRules.Limits
import RecordRules.Token.Lexer
import RecordRules.Tree.Parser

/-! # Errors and their messages -/

namespace RecordRules

/-- Everything that can go wrong, by what was being done. -/
inductive RuleError
  | lex (e : LexError)
  | parse (e : ParseError)
  | emptyRuleSet
  | evaluation (e : EvalError)
  | exchange (fault : Exchange.Fault)
  | limits (e : LimitsError)

namespace ParseError

def Expected.text : Expected → String
  | fieldName => "field name"
  | comparator => "comparator"
  | literal => "literal"
  | closeParen => "')'"

def message : ParseError → String
  | tooLong length limit =>
    "Rule is " ++ toString length ++ " bytes long, limit is " ++ toString limit
  | noTokens => "Empty token list"
  | endOfInput expected => "Unexpected end of input, expected " ++ expected.text
  | afterExpression found => "Unexpected token " ++ found.describe ++ " after complete expression"
  | unsupportedCombinator found =>
    "Unsupported combinator " ++ found.describe ++ ", use AND or OR"
  | tooDeep limit offset =>
    "Parentheses nested deeper than " ++ toString limit ++ " at offset " ++ toString offset
  | unclosed opened found =>
    "Expected ')' to close '(' at offset " ++ toString opened ++ ", found " ++ found.describe
  | notField found => "Expected field name, found " ++ found.describe
  | notComparator field found =>
    "Expected comparator after '" ++ field ++ "', found " ++ found.describe
  | notLiteral field comparator found =>
    "Expected literal after '" ++ field ++ " " ++ comparator.symbol ++ "', found " ++
      found.describe

end ParseError

def LimitsError.message : LimitsError → String
  | malformed => "malformed JSON"
  | nestedTooDeep => "recursion limit exceeded"
  | notAnObject => "configuration must be a JSON object"
  | unknownField name => "unknown field `" ++ name ++
    "`, expected one of `max_nesting_depth`, `max_rule_length`, `cache_capacity`"
  | wrongType found => "invalid type: " ++ found.describe ++ ", expected usize"
  | negative n => "invalid value: integer `" ++ toString n ++ "`, expected usize"
  | noNesting => "max_nesting_depth must be at least 1"
  | noLength => "max_rule_length must be at least 1"

def EvalError.message : EvalError → String
  | fieldNotFound field => "Field not found in record: " ++ field
  | typeMismatch field comparator found expected =>
    "Type mismatch on field '" ++ field ++ "': cannot apply " ++ comparator.name ++ " to " ++
      found ++ " and " ++ expected

namespace RuleError

def message : RuleError → String
  | lex e => "Unrecognized input at offset " ++ toString e.offset ++ ": " ++ Text.quoted e.fragment
  | parse e => "Parse error: " ++ e.message
  | emptyRuleSet => "Cannot combine an empty rule set"
  | evaluation e => e.message
  | exchange fault => "Deserialization error: " ++ fault.message
  | limits e => "Invalid configuration: " ++ e.message

/-- Whether a rule text is at fault, and not a record, a document or the limits. -/
def isCompileError : RuleError → Bool
  | lex _ | parse _ | emptyRuleSet => true
  | _ => false

end RuleError

end RecordRules
