import RecordRules.Number.Binary64

/-!
# JSON values

Objects keep their members in the order in which they were written, repeated keys included; a field
is the last member of its name. The normal form has each key once and the keys in order.
-/

namespace RecordRules

/-- A JSON number: an integer of 64 bits, with or without a sign, or a finite binary fraction. -/
inductive Json.Number
  | integer (n : Int) (low : Int64.minValue.toInt ≤ n) (high : n < UInt64.size)
  | float (x : Binary64) (finite : x.IsFinite)

inductive Json
  | null
  | bool (b : Bool)
  | number (n : Json.Number)
  | string (s : String)
  | array (items : List Json)
  | object (members : List (String × Json))

namespace Json

namespace Number

def ofInt? (n : Int) : Option Number :=
  if h : Int64.minValue.toInt ≤ n ∧ n < UInt64.size then some (.integer n h.1 h.2) else none

def ofInt64 (n : Int64) : Number :=
  .integer n.toInt n.minValue_le_toInt (by have := n.toInt_lt; simp only [UInt64.size]; omega)

def ofUInt64 (n : UInt64) : Number :=
  .integer n.toNat (Int.le_trans (by decide) (Int.natCast_nonneg _)) (Int.ofNat_lt.2 n.toNat_lt)

def ofBinary64? (x : Binary64) : Option Number :=
  if h : x.IsFinite then some (.float x h) else none

def toBinary64 : Number → Binary64
  | integer n _ _ => .ofInt n
  | float x _ => x

/-- A number read as a float: no integer is too wide for one. -/
def toBinary64? (n : Number) : Option Binary64 := some n.toBinary64

/-- An integer that 64 bits with a sign hold. -/
def toInt64? : Number → Option Int64
  | integer n _ _ => if n ≤ Int64.maxValue.toInt then some (.ofInt n) else none
  | float _ _ => none

/-- An integer that 64 bits without a sign hold. -/
def isUInt64 : Number → Bool
  | integer n _ _ => 0 ≤ n
  | float _ _ => false

end Number

def typeName : Json → String
  | null => "null"
  | bool _ => "bool"
  | number _ => "number"
  | string _ => "string"
  | array _ => "array"
  | object _ => "object"

/-- A field of an object; nothing else has fields. -/
def field? (name : String) : Json → Option Json
  | object members => members.reverse.lookup name
  | _ => none

/-! ## Induction -/

/-- What holds of a value if it holds of its items or members holds of all values. -/
@[elab_as_elim]
theorem induction {P : Json → Prop} (null : P null) (bool : ∀ b, P (bool b))
    (number : ∀ n, P (number n)) (string : ∀ s, P (string s))
    (array : ∀ items, (∀ j ∈ items, P j) → P (array items))
    (object : ∀ members, (∀ m ∈ members, P m.2) → P (object members)) (j : Json) : P j :=
  @Json.rec P (fun items => ∀ j ∈ items, P j) (fun members => ∀ m ∈ members, P m.2)
    (fun m => P m.2) null bool number string array object
    (List.forall_mem_nil _) (fun _ _ first rest => List.forall_mem_cons.2 ⟨first, rest⟩)
    (List.forall_mem_nil _) (fun _ _ first rest => List.forall_mem_cons.2 ⟨first, rest⟩)
    (fun _ _ value => value) j

/-! ## Nesting -/

mutual

/-- How many arrays and objects are open at once. -/
def depth : Json → Nat
  | array items => depthOfItems items + 1
  | object members => depthOfMembers members + 1
  | _ => 0

def depthOfItems : List Json → Nat
  | [] => 0
  | j :: rest => max j.depth (depthOfItems rest)

def depthOfMembers : List (String × Json) → Nat
  | [] => 0
  | (_, j) :: rest => max j.depth (depthOfMembers rest)

end

/-! ## Members in order of their keys -/

/-- Adds a member to members in order, in place of one of the same key. -/
def insertMember (key : String) (j : Json) : List (String × Json) → List (String × Json)
  | [] => [(key, j)]
  | (k, i) :: rest =>
    match compare key k with
    | .lt => (key, j) :: (k, i) :: rest
    | .eq => (key, j) :: rest
    | .gt => (k, i) :: insertMember key j rest

mutual

/-- The same value with the members of every object in order, the last of each key. -/
def sorted : Json → Json
  | array items => array (sortedItems items)
  | object members =>
    object ((sortedMembers members).foldl (fun ms (key, j) => insertMember key j ms) [])
  | j => j

def sortedItems : List Json → List Json
  | [] => []
  | j :: rest => j.sorted :: sortedItems rest

def sortedMembers : List (String × Json) → List (String × Json)
  | [] => []
  | (key, j) :: rest => (key, j.sorted) :: sortedMembers rest

end

end Json

end RecordRules
