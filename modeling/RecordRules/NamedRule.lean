import RecordRules.Compilation
import RecordRules.Exchange.Reader
import RecordRules.Exchange.Writer

/-!
# Named rules

A tree with an optional name, as it is stored.
-/

namespace RecordRules

structure NamedRule where
  name : Option String
  tree : Tree
  deriving DecidableEq

namespace NamedRule

open Json (Document)

def compile (name text : String) : Except RuleError NamedRule := do
  return ⟨some name, ← RecordRules.compile {} text⟩

def combine (name : String) (rules : List String) : Except RuleError NamedRule := do
  return ⟨some name, ← RecordRules.combine {} rules⟩

def evaluate (record : Json) (r : NamedRule) : Except EvalError Bool := r.tree.evaluate record

def text (r : NamedRule) : String :=
  match r.name with
  | some name => name ++ ": " ++ r.tree.text
  | none => r.tree.text

def sameRule (r s : NamedRule) : Bool := r.name == s.name && r.tree.sameTree s.tree

/-! ## The exchange format -/

def toJson (r : NamedRule) : Json :=
  .object ((r.name.map fun name => ("name", Json.string name)).toList ++ [("ast", r.tree.toJson)])

/-- The members of a rule without those that a reader skips. -/
def lookedAtMembers (members : List (Option String × Document)) :
    List (Option String × Document) :=
  members.filterMap fun (key, d) =>
    match key with
    | none => some (none, d)
    | some key =>
      if key = "ast" then some (key, Exchange.lookedAt d)
      else if key = "name" then some (key, d)
      else none

/-- A rule without the members that a reader skips. -/
def lookedAt : Document → Document
  | .object members => .object (lookedAtMembers members)
  | .array (name :: tree :: rest) => .array (name :: Exchange.lookedAt tree :: rest)
  | d => d

def nameOf : Json → Except Exchange.Fault (Option String)
  | .null => .ok none
  | .string name => .ok (some name)
  | j => .error (.wrongType j .ruleName)

def ofMembers (name : Option (Option String)) (tree : Option Tree) :
    List (String × Json) → Except Exchange.Fault NamedRule
  | [] => match tree with
    | some tree => .ok ⟨name.join, tree⟩
    | none => .error (.missingField "ast")
  | (key, j) :: rest =>
    if key = "name" then do
      let name ← Exchange.once name key (nameOf j)
      ofMembers (some name) tree rest
    else if key = "ast" then do
      let tree ← Exchange.once tree key (Exchange.tree .text j)
      ofMembers name (some tree) rest
    else ofMembers name tree rest

def ofJson : Json → Except Exchange.Fault NamedRule
  | .object members => ofMembers none none members
  | .array [] => .error (.missingItem 1 .rule)
  | .array (name :: rest) => do
    let name ← nameOf name
    match rest with
    | [] => throw (.missingItem 1 .rule)
    | tree :: rest =>
      let tree ← Exchange.tree .text tree
      if rest.isEmpty then return ⟨name, tree⟩ else throw .trailing
  | j => .error (.wrongType j .rule)

def ofText (text : String) : Except Exchange.Fault NamedRule :=
  Exchange.readText lookedAt ofJson text

end NamedRule

end RecordRules
