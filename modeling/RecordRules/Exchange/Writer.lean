import RecordRules.Exchange.Shape
import RecordRules.Json.Basic

/-!
# From trees to JSON

A tree has one form in JSON: all members of a node are written, a leaf has null for its children.
-/

namespace RecordRules

def Literal.toJson : Literal → Json
  | integer n => .number (.ofInt64 n)
  | float x => ((Json.Number.ofBinary64? x).map Json.number).getD .null
  | string s => .string s

def Condition.toJson (c : Condition) : Json :=
  .object [("field", .string c.field), ("comparator", .string c.comparator.name),
    ("literal", c.literal.toJson)]

/-- The JSON value of a tree; a float that is not finite is written as null. -/
def Tree.toJson : Tree → Json
  | operand c => .object [("node_type", .string Exchange.NodeKind.operand.name), ("left", .null),
    ("right", .null), ("value", c.toJson)]
  | operator k left right => .object [("node_type", .string Exchange.NodeKind.operator.name),
    ("left", left.toJson), ("right", right.toJson), ("value", .string k.keyword)]

end RecordRules
