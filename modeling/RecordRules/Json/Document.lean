import RecordRules.Json.Basic

/-!
# JSON documents

A document is what a JSON text says, before its parts are read: a number that is too large, or a
string with half of a surrogate pair, is a part that cannot be read. A document with such a part is
no value, but one who skips the part does not notice it.
-/

namespace RecordRules.Json

inductive Document
  | null
  | bool (b : Bool)
  | number (value : Option Number)
  | string (value : Option String)
  | array (items : List Document)
  | object (members : List (Option String × Document))

namespace Document

mutual

/-- The value of a document all of whose parts can be read. -/
def toJson? : Document → Option Json
  | null => some .null
  | bool b => some (.bool b)
  | number value => value.map .number
  | string value => value.map .string
  | array items => (itemsToJson? items).map .array
  | object members => (membersToJson? members).map .object

def itemsToJson? : List Document → Option (List Json)
  | [] => some []
  | d :: rest => do return (← d.toJson?) :: (← itemsToJson? rest)

def membersToJson? : List (Option String × Document) → Option (List (String × Json))
  | [] => some []
  | (key, d) :: rest => do return (← key, ← d.toJson?) :: (← membersToJson? rest)

end

end Document

end RecordRules.Json
