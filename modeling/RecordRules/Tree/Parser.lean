import RecordRules.Token.Basic
import RecordRules.Tree

/-!
# From tokens to a rule tree

An expression is a row of terms with combinators between them, read from left to right without
precedence; a term is a condition or an expression in parentheses. The tokens are taken one by one.
Between two tokens the parser stands at a place in the innermost open group, and knows of each group
around it what came before its parenthesis.
-/

namespace RecordRules

/-- What the end of the tokens leaves missing. -/
inductive ParseError.Expected
  | fieldName
  | comparator
  | literal
  | closeParen
  deriving DecidableEq, Repr

/-- Why tokens are no rule, or a text is not even split into tokens. -/
inductive ParseError
  | tooLong (length limit : Nat)
  | noTokens
  | endOfInput (expected : ParseError.Expected)
  | afterExpression (found : Token)
  | unsupportedCombinator (found : Token)
  | tooDeep (limit offset : Nat)
  | unclosed (opened : Nat) (found : Token)
  | notField (found : Token)
  | notComparator (field : String) (found : Token)
  | notLiteral (field : String) (comparator : Comparator) (found : Token)
  deriving DecidableEq, Repr

namespace Parser

/-- What stands before a term in its group: nothing, or a tree and the combinator that joins it. -/
abbrev Left := Option (Tree × Combinator)

/-- A term behind what stands before it. -/
def Left.graft : Left → Tree → Tree
  | none, t => t
  | some (left, kind), t => .operator kind left t

/-- The place in the innermost open group, between two tokens. -/
inductive Place
  /-- Before a term. -/
  | term (left : Left)
  /-- After the field of a condition. -/
  | field (left : Left) (name : String)
  /-- After the comparator of a condition. -/
  | comparator (left : Left) (name : String) (c : Comparator)
  /-- After a term. -/
  | complete (tree : Tree)

/-- An open parenthesis: where it is, and what came before it in the group around it. -/
structure Group where
  offset : Nat
  left : Left

structure State where
  groups : List Group
  place : Place

def State.start : State := ⟨[], .term none⟩

/-- Takes one token, with at most `limit` open parentheses. -/
def step (limit : Nat) (s : State) (t : Token) : Except ParseError State :=
  match s.place with
  | .term left =>
    match t.kind with
    | .openParen =>
      if s.groups.length < limit then .ok ⟨⟨t.offset, left⟩ :: s.groups, .term none⟩
      else .error (.tooDeep limit t.offset)
    | .word name => .ok ⟨s.groups, .field left name⟩
    | _ => .error (.notField t)
  | .field left name =>
    match t.kind with
    | .comparator c => .ok ⟨s.groups, .comparator left name c⟩
    | _ => .error (.notComparator name t)
  | .comparator left name c =>
    match t.kind with
    | .word text | .quoted text =>
      .ok ⟨s.groups, .complete (left.graft (.operand ⟨name, c, .ofText text⟩))⟩
    | _ => .error (.notLiteral name c t)
  | .complete tree =>
    match t.kind with
    | .combinator kind => .ok ⟨s.groups, .term (some (tree, kind))⟩
    | .doubleAmpersand | .doubleBar => .error (.unsupportedCombinator t)
    | kind =>
      match s.groups with
      | [] => .error (.afterExpression t)
      | g :: groups =>
        if kind = .closeParen then .ok ⟨groups, .complete (g.left.graft tree)⟩
        else .error (.unclosed g.offset t)

def finish (s : State) : Except ParseError Tree :=
  match s.place with
  | .term _ => .error (.endOfInput .fieldName)
  | .field _ _ => .error (.endOfInput .comparator)
  | .comparator _ _ _ => .error (.endOfInput .literal)
  | .complete tree => if s.groups.isEmpty then .ok tree else .error (.endOfInput .closeParen)

def parse (limit : Nat) (tokens : List Token) : Except ParseError Tree :=
  if tokens.isEmpty then .error .noTokens
  else tokens.foldlM (step limit) .start >>= finish

end Parser

end RecordRules
