import RecordRules.Json.Printer
import RecordRules.Json.Reader

/-!
# Limits

The limits under which rules are compiled and cached. They are read from a JSON object of which each
member is optional; the members are taken in the order of their keys and the first fault is
reported.
-/

namespace RecordRules

structure Limits where
  /-- How many parentheses may be open at once. -/
  maxNestingDepth : UInt64 := 64
  /-- How many bytes a rule text may have. -/
  maxRuleLength : UInt64 := 65536
  /-- How many compiled rules a cache keeps. -/
  cacheCapacity : UInt64 := 1024
  deriving DecidableEq, Repr

/-- Why limits are refused. -/
inductive LimitsError
  | malformed
  | nestedTooDeep
  | notAnObject
  | unknownField (name : String)
  | wrongType (found : Json)
  | negative (n : Int)
  | noNesting
  | noLength

namespace Limits

/-- Rules need parentheses and a length above zero; a cache may keep nothing. -/
def validate (l : Limits) : Except LimitsError Unit :=
  if l.maxNestingDepth = 0 then .error .noNesting
  else if l.maxRuleLength = 0 then .error .noLength
  else .ok ()

/-- A whole number of 64 bits without a sign. -/
def limitOf (j : Json) : Except LimitsError UInt64 :=
  match j with
  | .number (.integer n _ _) =>
    if n < 0 then .error (.negative n) else .ok (UInt64.ofNat n.toNat)
  | j => .error (.wrongType j)

def setMember (l : Limits) (key : String) (j : Json) : Except LimitsError Limits :=
  if key = "max_nesting_depth" then do return { l with maxNestingDepth := ← limitOf j }
  else if key = "max_rule_length" then do return { l with maxRuleLength := ← limitOf j }
  else if key = "cache_capacity" then do return { l with cacheCapacity := ← limitOf j }
  else .error (.unknownField key)

/-- The limits that a value describes, those not named at their defaults. -/
def ofJson (j : Json) : Except LimitsError Limits :=
  match j.sorted with
  | .object members => members.foldlM (fun l m => l.setMember m.1 m.2) {}
  | _ => .error .notAnObject

/-- How many arrays and objects of a text may be open at once. -/
def maxTextDepth : Nat := 127

def ofText (text : String) : Except LimitsError Limits :=
  match Json.ofText? text with
  | none => .error .malformed
  | some j =>
    if maxTextDepth < j.depth then .error .nestedTooDeep
    else do
      let l ← ofJson j
      l.validate
      return l

def toJson (l : Limits) : Json :=
  .object [("max_nesting_depth", .number (.ofUInt64 l.maxNestingDepth)),
    ("max_rule_length", .number (.ofUInt64 l.maxRuleLength)),
    ("cache_capacity", .number (.ofUInt64 l.cacheCapacity))]

end Limits

end RecordRules
