import RecordRules.Error

/-!
# From rule texts to trees

A rule text is compiled under limits. Several texts become one tree: each is compiled by itself and
the trees are joined from left to right by the combinator that the texts use most.
-/

namespace RecordRules

/-- The tokens of a rule text that is not too long. -/
def tokensWithin (limits : Limits) (text : String) : Except RuleError (List Token) :=
  if limits.maxRuleLength.toNat < text.utf8ByteSize then
    .error (.parse (.tooLong text.utf8ByteSize limits.maxRuleLength.toNat))
  else (Token.tokenize text).mapError .lex

def parse (limits : Limits) (tokens : List Token) : Except RuleError Tree :=
  (Parser.parse limits.maxNestingDepth.toNat tokens).mapError .parse

def compile (limits : Limits) (text : String) : Except RuleError Tree := do
  parse limits (← tokensWithin limits text)

/-! ## Several rules -/

/-- The combinator that occurs most among tokens; a tie goes to AND. -/
def dominantOf (tokens : List Token) : Combinator :=
  let uses (k : Combinator) : Nat := tokens.countP (·.kind = .combinator k)
  if uses .or ≤ uses .and then .and else .or

def dominant (rules : List String) : Except RuleError Combinator := do
  let streams ← rules.mapM fun rule => (Token.tokenize rule).mapError .lex
  return dominantOf streams.flatten

def joinAll (k : Combinator) (first : Tree) (rest : List Tree) : Tree :=
  rest.foldl (.operator k) first

/-- The tree of several rule texts; all are split into tokens before the first is parsed. -/
def combine (limits : Limits) (rules : List String) : Except RuleError Tree := do
  let streams ← rules.mapM (tokensWithin limits)
  match ← streams.mapM (parse limits) with
  | [] => throw .emptyRuleSet
  | first :: rest => return joinAll (dominantOf streams.flatten) first rest

end RecordRules
