import RecordRules.Exchange.Shape
import RecordRules.Json.Basic

/-!
# From JSON to shapes

The members of an object are taken in order and the first fault is reported. A text is read in the
order in which it is written; a value has its members in the order of their keys.
-/

namespace RecordRules.Exchange

/-- How JSON comes in. -/
inductive Route
  | text
  | value
  deriving DecidableEq, Repr

/-- What a value was to be. -/
inductive Fault.Expected
  | node
  | rule
  | ruleName
  | kindName
  | unit
  deriving DecidableEq, Repr

/-- Why JSON is no tree or named rule. -/
inductive Fault
  | malformed
  | missingField (name : String)
  | duplicateField (name : String)
  | wrongType (found : Json) (expected : Fault.Expected)
  /-- An array ends before the item at `index`, which cannot be left out. -/
  | missingItem (index : Nat) (expected : Fault.Expected)
  | tooManyItems (length : Nat)
  /-- An array goes on after its last item. -/
  | trailing
  | unknownKind (name : String)
  | notAKind
  | notOneKind
  | notAValue
  | tree (fault : TreeFault)

/-! ## What a node carries -/

/-- A word that stands alone or as the one key of an object with null. -/
def tag? : Json → Option String
  | .string s => some s
  | .object [(key, .null)] => some key
  | _ => none

def literal? : Json → Option Literal
  | .number n => some (match n with
    | .integer m _ _ =>
      if Int64.minValue.toInt ≤ m ∧ m ≤ Int64.maxValue.toInt then .integer (Int64.ofInt m)
      else .float n.toBinary64
    | .float x _ => .float x)
  | .string s => some (.string s)
  | _ => none

def condition? (field comparator literal : Json) : Option Condition := do
  let .string field := field | none
  let comparator ← (tag? comparator).bind Comparator.ofName?
  return ⟨field, comparator, ← literal? literal⟩

/-- The member of a key that occurs once. -/
def only? (key : String) (members : List (String × Json)) : Option Json :=
  match members.filter (·.1 == key) with
  | [(_, j)] => some j
  | _ => none

def conditionOf? : Json → Option Condition
  | .object members => do
    condition? (← only? "field" members) (← only? "comparator" members) (← only? "literal" members)
  | .array [field, comparator, literal] => condition? field comparator literal
  | _ => none

/-- A condition, or else the keyword of a combinator. -/
def nodeValue (j : Json) : Except Fault NodeValue :=
  match conditionOf? j with
  | some c => .ok (.condition c)
  | none => match (tag? j).bind Combinator.ofKeyword? with
    | some k => .ok (.combinator k)
    | none => .error .notAValue

/-! ## The kind of a node -/

def kindOfName (name : String) : Except Fault NodeKind :=
  match NodeKind.ofName? name with
  | some k => .ok k
  | none => .error (.unknownKind name)

/-- The kind that an object names by its key. -/
def kindOfMember (key : String) (j : Json) : Except Fault NodeKind := do
  let k ← kindOfName key
  match j with
  | .null => return k
  | j => throw (.wrongType j .unit)

def nodeKind (route : Route) (j : Json) : Except Fault NodeKind :=
  match route, j with
  | _, .string s => kindOfName s
  | .text, .object ((key, j) :: rest) => do
    let k ← kindOfMember key j
    if rest.isEmpty then return k else throw .notAKind
  | .text, _ => .error .notAKind
  | .value, .object [(key, j)] => kindOfMember key j
  | .value, .object _ => .error .notOneKind
  | .value, j => .error (.wrongType j .kindName)

/-! ## Nodes -/

/-- The members of a node met so far. -/
structure Slots where
  kind : Option NodeKind := none
  left : Option (Option Shape) := none
  right : Option (Option Shape) := none
  value : Option NodeValue := none

/-- The node, once all members are met; a child may be left out. -/
def Slots.close (s : Slots) : Except Fault Shape :=
  match s.kind, s.value with
  | none, _ => .error (.missingField "node_type")
  | some _, none => .error (.missingField "value")
  | some kind, some value => .ok (.node kind s.left.join s.right.join value)

/-- The fault of an array of too many items: a reader of text does not count them. -/
def tooManyItems (route : Route) (length : Nat) : Fault :=
  match route with
  | .text => .trailing
  | .value => .tooManyItems length

/-- The last item of a node written as an array. -/
def closeItems (route : Route) (kind : NodeKind) (left right : Option Shape) :
    List Json → Except Fault Shape
  | [] => .error (.missingItem 3 .node)
  | j :: rest => do
    let value ← nodeValue j
    if rest.isEmpty then return .node kind left right value
    else throw (tooManyItems route (rest.length + 4))

/-- The value of a member that is met for the first time. -/
def once {α : Type} (slot : Option α) (key : String) (read : Except Fault α) : Except Fault α :=
  if slot.isSome then .error (.duplicateField key) else read

mutual

/-- A node, or null for no node. -/
def child (route : Route) : Json → Except Fault (Option Shape)
  | .null => .ok none
  | .object ms => some <$> members route {} ms
  | .array [] => .error (.missingItem 0 .node)
  | .array (j :: rest) => do
    let kind ← nodeKind route j
    some <$> leftItem route kind rest
  | j => .error (.wrongType j .node)

def members (route : Route) (s : Slots) : List (String × Json) → Except Fault Shape
  | [] => s.close
  | (key, j) :: rest =>
    if key = "node_type" then do
      let kind ← once s.kind key (nodeKind route j)
      members route { s with kind := some kind } rest
    else if key = "left" then do
      let left ← once s.left key (child route j)
      members route { s with left := some left } rest
    else if key = "right" then do
      let right ← once s.right key (child route j)
      members route { s with right := some right } rest
    else if key = "value" then do
      let value ← once s.value key (nodeValue j)
      members route { s with value := some value } rest
    else members route s rest

def leftItem (route : Route) (kind : NodeKind) : List Json → Except Fault Shape
  | [] => .error (.missingItem 3 .node)
  | j :: rest => do
    let left ← child route j
    rightItem route kind left rest

def rightItem (route : Route) (kind : NodeKind) (left : Option Shape) :
    List Json → Except Fault Shape
  | [] => .error (.missingItem 3 .node)
  | j :: rest => do
    let right ← child route j
    closeItems route kind left right rest

end

def shape (route : Route) (j : Json) : Except Fault Shape := do
  match ← child route j with
  | some s => return s
  | none => throw (.wrongType j .node)

def tree (route : Route) (j : Json) : Except Fault Tree := do
  (← shape route j).toTree.mapError .tree

end RecordRules.Exchange
