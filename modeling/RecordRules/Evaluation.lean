import RecordRules.Json.Basic
import RecordRules.Tree

/-!
# Evaluation of a rule on a record

A record is a JSON value. Both sides of an operator are evaluated, left before right, and the first
error is the result: a field that is missing, or a value that does not compare with the literal, is
never taken for false.
-/

namespace RecordRules

inductive EvalError
  | fieldNotFound (field : String)
  | typeMismatch (field : String) (comparator : Comparator) (found expected : String)
  deriving DecidableEq, Repr

/-- How a number compares with a whole number: whole numbers exactly, others as floats. What has no
order as a float is taken for less. -/
def Json.Number.compareInteger (n : Json.Number) (literal : Int64) : Ordering :=
  match n.toInt64? with
  | some m => compare m literal
  | none =>
    -- An integer that is not one of those with a sign is above all of them.
    if n.isUInt64 then .gt
    else ((n.toBinary64?.getD .nan).compare? (.ofInt literal.toInt)).getD .lt

/-- A text as its bytes in UTF-8. -/
def Text.bytes (s : String) : List UInt8 := s.toUTF8.data.toList

/-- Two texts compare by the first bytes in which they differ, and a text comes after its
beginnings. -/
def Text.compareBytes (s t : String) : Ordering := compare (bytes s) (bytes t)

/-- How a value compares with a literal: numbers as numbers, strings by their bytes. -/
def Literal.compare? (value : Json) : Literal → Option Ordering
  | .integer m => match value with
    | .number n => some (n.compareInteger m)
    | _ => none
  | .float x => match value with
    | .number n => n.toBinary64?.bind (·.compare? x)
    | _ => none
  | .string s => match value with
    | .string t => some (Text.compareBytes t s)
    | _ => none

def Condition.evaluate (c : Condition) (value : Json) : Except EvalError Bool :=
  match c.literal.compare? value with
  | some o => .ok (c.comparator.holds o)
  | none => .error (.typeMismatch c.field c.comparator value.typeName c.literal.typeName)

def Condition.evaluateOn (c : Condition) (record : Json) : Except EvalError Bool :=
  match record.field? c.field with
  | some value => c.evaluate value
  | none => .error (.fieldNotFound c.field)

def Tree.evaluate (record : Json) : Tree → Except EvalError Bool
  | operand c => c.evaluateOn record
  | operator kind left right => do
    let l ← left.evaluate record
    let r ← right.evaluate record
    return kind.apply l r

end RecordRules
