import RecordRules.Exchange.Decoder
import RecordRules.Json.Reader

/-!
# Trees from JSON text and from JSON values

A reader of text skips the members of a node that it does not know, so what they hold need only be
well-formed. A fault is reported of text that can be read as a whole; all other text is malformed.
-/

namespace RecordRules.Exchange

open Json (Document)

/-! ## What a reader of text looks at -/

def nodeKeys : List String := ["node_type", "left", "right", "value"]

mutual

/-- A node without the members that a reader skips. -/
def lookedAt : Document → Document
  | .object members => .object (lookedAtMembers members)
  | .array (kind :: rest) => .array (kind :: lookedAtItems rest)
  | d => d

def lookedAtMembers : List (Option String × Document) → List (Option String × Document)
  | [] => []
  | (none, d) :: rest => (none, d) :: lookedAtMembers rest
  | (some key, d) :: rest =>
    if key ∈ ["left", "right"] then (some key, lookedAt d) :: lookedAtMembers rest
    else if key ∈ nodeKeys then (some key, d) :: lookedAtMembers rest
    else lookedAtMembers rest

/-- The items of a node after its kind. -/
def lookedAtItems : List Document → List Document
  | left :: right :: rest => lookedAt left :: lookedAt right :: rest
  | [left] => [lookedAt left]
  | [] => []

end

/-- Reads what `keep` leaves of a text; a fault counts if all of the text can be read. -/
def readText {α : Type} (keep : Document → Document) (decode : Json → Except Fault α)
    (text : String) : Except Fault α :=
  match Document.ofText? text with
  | none => .error .malformed
  | some d => match (keep d).toJson? with
    | none => .error .malformed
    | some j => match decode j with
      | .ok a => .ok a
      | .error fault => .error (if d.toJson?.isSome then fault else .malformed)

def treeOfText (text : String) : Except Fault Tree := readText lookedAt (tree .text) text

def treeOfValue (j : Json) : Except Fault Tree := tree .value j.sorted

end RecordRules.Exchange
