import RecordRules.Tree

/-!
# Trees in the exchange format

A node is written as a JSON object that names its kind, its two children and what it carries. Such
an object can also say what is no tree, so it is first taken as a shape; a tree is a shape that
keeps the rules of trees.
-/

namespace RecordRules.Exchange

inductive NodeKind
  | operand
  | operator
  deriving DecidableEq, Repr

/-- What a node carries. -/
inductive NodeValue
  | condition (c : Condition)
  | combinator (k : Combinator)

/-- A node as it is written. -/
inductive Shape
  | node (kind : NodeKind) (left right : Option Shape) (value : NodeValue)

/-- A rule of trees that a shape breaks. -/
inductive TreeFault
  | childrenOfOperand (c : Condition)
  | mixedQuotes (field : String)
  | missingChild (k : Combinator)
  | operandCombinator (k : Combinator)
  | operatorCondition (c : Condition)

namespace NodeKind

def name : NodeKind → String
  | operand => "operand"
  | operator => "operator"

def ofName? (name : String) : Option NodeKind := [operand, operator].find? (·.name == name)

end NodeKind

/-- The tree of a shape; a node is looked at before its children, left before right. -/
def Shape.toTree : Shape → Except TreeFault Tree
  | node .operand left right (.condition c) =>
    if left.isSome || right.isSome then .error (.childrenOfOperand c)
    else if c.literal.mixesQuotes then .error (.mixedQuotes c.field)
    else .ok (.operand c)
  | node .operator (some left) (some right) (.combinator k) => do
    let l ← left.toTree
    let r ← right.toTree
    return .operator k l r
  | node .operator _ _ (.combinator k) => .error (.missingChild k)
  | node .operand _ _ (.combinator k) => .error (.operandCombinator k)
  | node .operator _ _ (.condition c) => .error (.operatorCondition c)

end RecordRules.Exchange
