import RecordRules.Compilation

/-!
# The cache of compiled rules

Each compilation makes an object of its own, known by a serial number. A cache keeps the objects of
the first texts that compile, as many as its capacity, until it is cleared. A text in the cache is
answered with its object whatever the limits are now; any other is compiled.
-/

namespace RecordRules

/-- A compiled rule as an object: two are one object if their serial numbers are equal. -/
structure Compiled where
  serial : Nat
  tree : Tree
  deriving DecidableEq

structure Cache where
  capacity : UInt64
  /-- The objects by their rule text, in the order in which they came. -/
  entries : List (String × Compiled)
  /-- How many objects were made. -/
  made : Nat

namespace Cache

def empty (capacity : UInt64) : Cache := ⟨capacity, [], 0⟩

def size (c : Cache) : Nat := c.entries.length

def isEmpty (c : Cache) : Bool := c.entries.isEmpty

def get? (c : Cache) (text : String) : Option Compiled := c.entries.lookup text

/-- The cache with a new object, which is kept if there is room. -/
def keep (c : Cache) (text : String) (rule : Compiled) : Cache where
  capacity := c.capacity
  entries := if c.size < c.capacity.toNat then c.entries ++ [(text, rule)] else c.entries
  made := c.made + 1

def fetch (c : Cache) (limits : Limits) (text : String) :
    Except RuleError Compiled × Cache :=
  match c.get? text with
  | some rule => (.ok rule, c)
  | none => match compile limits text with
    | .ok tree => (.ok ⟨c.made, tree⟩, c.keep text ⟨c.made, tree⟩)
    | .error e => (.error e, c)

def clear (c : Cache) : Cache := { c with entries := [] }

end Cache

end RecordRules
