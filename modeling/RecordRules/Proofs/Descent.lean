import RecordRules.Proofs.Parsing

/-!
# The parser by recursive descent

Rules can also be read by functions that call each other: an expression calls for its terms, and a
term in parentheses calls for the expression in them. All move one cursor over the tokens and one
count of the open parentheses. Nothing in their text says that they end, so they are partial here,
and `Ends` says of a call that it does. Main statement: the relation `Evaluates`, which has one case
for each way through the text of a call, tells how the calls end.
-/

namespace RecordRules

namespace Parser

namespace Descent

open Token (Kind)

/-! ## The functions -/

/-- How many tokens are taken, and the count of open parentheses. The count has 64 bits and starts
again from zero after the greatest number. -/
structure Cursor where
  pos : Nat
  depth : UInt64

/-- Where a call for an expression starts, inside of how many other ones. -/
structure Entry extends Cursor where
  nesting : Nat

/-- The cursor, and the calls for an expression that it has seen, the latest first. -/
structure State extends Cursor where
  entries : List Entry

namespace State

def start : State := ⟨⟨0, 0⟩, []⟩

def skipped (s : State) : State := { s with pos := s.pos + 1 }

def opened (s : State) : State := { s with pos := s.pos + 1, depth := s.depth + 1 }

def closed (s : State) : State := { s with depth := s.depth - 1 }

def entered (nesting : Nat) (s : State) : State :=
  { s with entries := ⟨s.toCursor, nesting⟩ :: s.entries }

end State

/-- A computation that may fail, in a state that it keeps when it fails, and that may not end. -/
abbrev Run := ExceptT ParseError (StateT State Option)

section
variable (limit : UInt64) (ts : List Token)

def peek : Run (Option Token) := return ts[(← get).pos]?

def advance (expected : ParseError.Expected) : Run Token := do
  match ← peek ts with
  | none => throw (.endOfInput expected)
  | some t =>
    modify .skipped
    return t

def condition : Run Tree := do
  let field ← advance ts .fieldName
  match field.kind with
  | .word name =>
    let sign ← advance ts .comparator
    match sign.kind with
    | .comparator c =>
      let literal ← advance ts .literal
      match literal.kind with
      | .word text | .quoted text => return .operand ⟨name, c, .ofText text⟩
      | _ => throw (.notLiteral name c literal)
    | _ => throw (.notComparator name sign)
  | _ => throw (.notField field)

/-- Takes the parenthesis at `offset`, if there is room for one more. -/
def openGroup (offset : Nat) : Run Unit := do
  modify .opened
  if limit < (← get).depth then throw (.tooDeep limit.toNat offset)

/-- Takes the parenthesis that closes the one at `offset`. -/
def closeGroup (offset : Nat) : Run Unit := do
  let close ← advance ts .closeParen
  match close.kind with
  | .closeParen => modify .closed
  | _ => throw (.unclosed offset close)

/-- The functions that call each other. The first two read a term and an expression; the last one
reads the terms that follow a tree in its group. -/
inductive Call
  | term
  | expression
  | joined (tree : Tree)

/-- What the functions do inside of `nesting` calls for an expression. -/
def Call.run : Call → Nat → Run Tree
  | .expression, nesting => do
    modify (.entered nesting)
    let first ← Call.term |>.run nesting
    Call.joined first |>.run nesting
  | .joined tree, nesting => do
    match ← peek ts with
    | none => return tree
    | some t =>
      match t.kind with
      | .combinator kind =>
        modify .skipped
        let right ← Call.term |>.run nesting
        Call.joined (.operator kind tree right) |>.run nesting
      | .doubleAmpersand | .doubleBar => throw (.unsupportedCombinator t)
      | _ => return tree
  | .term, nesting => do
    match ← peek ts with
    | some ⟨.openParen, offset⟩ =>
      openGroup limit offset
      let tree ← Call.expression |>.run (nesting + 1)
      closeGroup ts offset
      return tree
    | _ => condition ts
partial_fixpoint

def parse : Run Tree := do
  if ts.isEmpty then throw .noTokens
  else
    let tree ← Call.expression.run limit ts 0
    match ← peek ts with
    | none => return tree
    | some extra => throw (.afterExpression extra)

end

/-! ## How a computation ends -/

/-- The computation ends, with this result and in this state. -/
def Ends {α : Type} (x : Run α) (s : State) (r : Except ParseError α) (s' : State) : Prop :=
  x.run.run s = some (r, s')

section
variable {α β : Type} {x : Run α} {f : α → Run β} {s u s' : State}

theorem Ends.unique {r q : Except ParseError α} (h : Ends x s r s') (h' : Ends x s q u) :
    r = q ∧ s' = u := by
  unfold Ends at h h'
  rw [h] at h'
  simpa using h'

theorem Ends.bind {a : α} {r : Except ParseError β} (hx : Ends x s (.ok a) u)
    (hf : Ends (f a) u r s') : Ends (x >>= f) s r s' := by
  unfold Ends at hx ⊢
  rw [ExceptT.run_bind, StateT.run_bind, hx]
  exact hf

theorem Ends.bind_error {e : ParseError} (hx : Ends x s (.error e) s') :
    Ends (x >>= f) s (.error e) s' := by
  unfold Ends at hx ⊢
  rw [ExceptT.run_bind, StateT.run_bind, hx]
  rfl

theorem ends_peek (ts : List Token) (s : State) : Ends (peek ts) s (.ok ts[s.pos]?) s := rfl

theorem ends_modify (g : State → State) (s : State) : Ends (modify g) s (.ok ()) (g s) := rfl

theorem ends_get (s : State) : Ends get s (.ok s) s := rfl

theorem ends_pure (a : α) (s : State) : Ends (pure a) s (.ok a) s := rfl

theorem ends_throw (e : ParseError) (s : State) : Ends (throw e : Run α) s (.error e) s := rfl

end

section
variable {limit : UInt64} {ts : List Token} {s : State} {t : Token} {o : Nat}

theorem ends_advance (expected : ParseError.Expected) (h : ts[s.pos]? = some t) :
    Ends (advance ts expected) s (.ok t) s.skipped := by
  apply Ends.bind (ends_peek ts s)
  rw [h]
  exact .bind (ends_modify _ s) (ends_pure t _)

theorem ends_advance_end (expected : ParseError.Expected) (h : ts[s.pos]? = none) :
    Ends (advance ts expected) s (.error (.endOfInput expected)) s := by
  apply Ends.bind (ends_peek ts s)
  rw [h]
  exact ends_throw _ s

theorem ends_openGroup (fits : s.depth + 1 ≤ limit) :
    Ends (openGroup limit o) s (.ok ()) s.opened := by
  have room : ¬ limit < s.opened.depth := UInt64.not_lt.2 fits
  apply Ends.bind (ends_modify .opened s)
  apply Ends.bind (ends_get s.opened)
  rw [if_neg room]
  exact ends_pure () _

theorem ends_openGroup_error (deep : limit < s.depth + 1) :
    Ends (openGroup limit o) s (.error (.tooDeep limit.toNat o)) s.opened := by
  have full : limit < s.opened.depth := deep
  apply Ends.bind (ends_modify .opened s)
  apply Ends.bind (ends_get s.opened)
  rw [if_pos full]
  exact ends_throw _ _

theorem ends_closeGroup {p : Nat} (h : ts[s.pos]? = some ⟨.closeParen, p⟩) :
    Ends (closeGroup ts o) s (.ok ()) s.skipped.closed :=
  .bind (ends_advance .closeParen h) (ends_modify .closed _)

theorem ends_closeGroup_error (h : ts[s.pos]? = some t) (other : t.kind ≠ .closeParen) :
    Ends (closeGroup ts o) s (.error (.unclosed o t)) s.skipped := by
  apply Ends.bind (ends_advance .closeParen h)
  split
  · exact absurd ‹_› other
  · exact ends_throw _ _

end

/-! ## What the calls do -/

/-- The ways in which a call for a condition ends. -/
inductive Leaf (ts : List Token) (s : State) : Except ParseError Tree → State → Prop
  | condition {kind : Kind} {text : String} (name : String) (c : Comparator) (o p q : Nat)
      (field : ts[s.pos]? = some ⟨.word name, o⟩)
      (sign : ts[s.skipped.pos]? = some ⟨.comparator c, p⟩)
      (value : ts[s.skipped.skipped.pos]? = some ⟨kind, q⟩) (literal : IsLiteral kind text) :
      Leaf ts s (.ok (.operand ⟨name, c, .ofText text⟩)) s.skipped.skipped.skipped
  | noField (ended : ts[s.pos]? = none) : Leaf ts s (.error (.endOfInput .fieldName)) s
  | notField {x : Token} (found : ts[s.pos]? = some x) (other : ∀ name, x.kind ≠ .word name) :
      Leaf ts s (.error (.notField x)) s.skipped
  | noComparator {name : String} {o : Nat} (field : ts[s.pos]? = some ⟨.word name, o⟩)
      (ended : ts[s.skipped.pos]? = none) :
      Leaf ts s (.error (.endOfInput .comparator)) s.skipped
  | notComparator {name : String} {o : Nat} {x : Token}
      (field : ts[s.pos]? = some ⟨.word name, o⟩) (found : ts[s.skipped.pos]? = some x)
      (other : ∀ c, x.kind ≠ .comparator c) :
      Leaf ts s (.error (.notComparator name x)) s.skipped.skipped
  | noLiteral {name : String} {c : Comparator} {o p : Nat}
      (field : ts[s.pos]? = some ⟨.word name, o⟩)
      (sign : ts[s.skipped.pos]? = some ⟨.comparator c, p⟩)
      (ended : ts[s.skipped.skipped.pos]? = none) :
      Leaf ts s (.error (.endOfInput .literal)) s.skipped.skipped
  | notLiteral {name : String} {c : Comparator} {o p : Nat} {x : Token}
      (field : ts[s.pos]? = some ⟨.word name, o⟩)
      (sign : ts[s.skipped.pos]? = some ⟨.comparator c, p⟩)
      (found : ts[s.skipped.skipped.pos]? = some x) (other : ∀ text, ¬ IsLiteral x.kind text) :
      Leaf ts s (.error (.notLiteral name c x)) s.skipped.skipped.skipped

/-- What stands after a tree ends its group. -/
def EndsGroup (found : Option Token) : Prop :=
  ∀ x ∈ found, (∀ k, x.kind ≠ .combinator k) ∧ x.kind ≠ .doubleAmpersand ∧ x.kind ≠ .doubleBar

/-- A call inside of `nesting` calls for an expression, from one state to its result and the state
after it: what each call does, told by the calls that it makes. -/
inductive Evaluates (limit : UInt64) (ts : List Token) :
    Call → Nat → State → Except ParseError Tree → State → Prop
  | leaf {n : Nat} {s s' : State} {r : Except ParseError Tree}
      (bare : ∀ o, ts[s.pos]? ≠ some ⟨.openParen, o⟩) (condition : Leaf ts s r s') :
      Evaluates limit ts .term n s r s'
  | tooDeep {n o : Nat} {s : State} (opens : ts[s.pos]? = some ⟨.openParen, o⟩)
      (deep : limit < s.depth + 1) :
      Evaluates limit ts .term n s (.error (.tooDeep limit.toNat o)) s.opened
  | groupFails {n o : Nat} {s s' : State} {e : ParseError}
      (opens : ts[s.pos]? = some ⟨.openParen, o⟩) (fits : s.depth + 1 ≤ limit)
      (inner : Evaluates limit ts .expression (n + 1) s.opened (.error e) s') :
      Evaluates limit ts .term n s (.error e) s'
  | endless {n o : Nat} {s u : State} {t : Tree} (opens : ts[s.pos]? = some ⟨.openParen, o⟩)
      (fits : s.depth + 1 ≤ limit)
      (inner : Evaluates limit ts .expression (n + 1) s.opened (.ok t) u)
      (ended : ts[u.pos]? = none) :
      Evaluates limit ts .term n s (.error (.endOfInput .closeParen)) u
  | unclosed {n o : Nat} {s u : State} {t : Tree} {x : Token}
      (opens : ts[s.pos]? = some ⟨.openParen, o⟩) (fits : s.depth + 1 ≤ limit)
      (inner : Evaluates limit ts .expression (n + 1) s.opened (.ok t) u)
      (found : ts[u.pos]? = some x) (other : x.kind ≠ .closeParen) :
      Evaluates limit ts .term n s (.error (.unclosed o x)) u.skipped
  | group {n o p : Nat} {s u : State} {t : Tree} (opens : ts[s.pos]? = some ⟨.openParen, o⟩)
      (fits : s.depth + 1 ≤ limit)
      (inner : Evaluates limit ts .expression (n + 1) s.opened (.ok t) u)
      (closes : ts[u.pos]? = some ⟨.closeParen, p⟩) :
      Evaluates limit ts .term n s (.ok t) u.skipped.closed
  | firstFails {n : Nat} {s s' : State} {e : ParseError}
      (first : Evaluates limit ts .term n (s.entered n) (.error e) s') :
      Evaluates limit ts .expression n s (.error e) s'
  | first {n : Nat} {s u s' : State} {t : Tree} {r : Except ParseError Tree}
      (first : Evaluates limit ts .term n (s.entered n) (.ok t) u)
      (others : Evaluates limit ts (.joined t) n u r s') :
      Evaluates limit ts .expression n s r s'
  | last {n : Nat} {s : State} (t : Tree) (ends : EndsGroup ts[s.pos]?) :
      Evaluates limit ts (.joined t) n s (.ok t) s
  | unsupported {n : Nat} {s : State} {x : Token} (t : Tree) (found : ts[s.pos]? = some x)
      (sign : x.kind = .doubleAmpersand ∨ x.kind = .doubleBar) :
      Evaluates limit ts (.joined t) n s (.error (.unsupportedCombinator x)) s
  | rightFails {n o : Nat} {s s' : State} {e : ParseError} (t : Tree) (k : Combinator)
      (joins : ts[s.pos]? = some ⟨.combinator k, o⟩)
      (right : Evaluates limit ts .term n s.skipped (.error e) s') :
      Evaluates limit ts (.joined t) n s (.error e) s'
  | more {n o : Nat} {s u s' : State} {r : Except ParseError Tree} {right : Tree} (t : Tree)
      (k : Combinator) (joins : ts[s.pos]? = some ⟨.combinator k, o⟩)
      (taken : Evaluates limit ts .term n s.skipped (.ok right) u)
      (others : Evaluates limit ts (.joined (.operator k t right)) n u r s') :
      Evaluates limit ts (.joined t) n s r s'

section
variable {limit : UInt64} {ts : List Token} {s s' : State} {r : Except ParseError Tree}

theorem Leaf.ends (h : Leaf ts s r s') : Ends (Descent.condition ts) s r s' := by
  unfold Descent.condition
  cases h with
  | condition name c o p q field sign value literal =>
    apply Ends.bind (ends_advance .fieldName field)
    apply Ends.bind (ends_advance .comparator sign)
    apply Ends.bind (ends_advance .literal value)
    cases literal <;> exact ends_pure _ _
  | noField ended => exact .bind_error (ends_advance_end _ ended)
  | notField found other =>
    apply Ends.bind (ends_advance .fieldName found)
    split
    · exact absurd ‹_› (other _)
    · exact ends_throw _ _
  | noComparator field ended =>
    apply Ends.bind (ends_advance .fieldName field)
    exact .bind_error (ends_advance_end _ ended)
  | notComparator field found other =>
    apply Ends.bind (ends_advance .fieldName field)
    apply Ends.bind (ends_advance .comparator found)
    split
    · exact absurd ‹_› (other _)
    · exact ends_throw _ _
  | noLiteral field sign ended =>
    apply Ends.bind (ends_advance .fieldName field)
    apply Ends.bind (ends_advance .comparator sign)
    exact .bind_error (ends_advance_end _ ended)
  | notLiteral field sign found other =>
    apply Ends.bind (ends_advance .fieldName field)
    apply Ends.bind (ends_advance .comparator sign)
    apply Ends.bind (ends_advance .literal found)
    split
    · rename_i text word
      exact absurd (word ▸ IsLiteral.word text) (other text)
    · rename_i text quoted
      exact absurd (quoted ▸ IsLiteral.quoted text) (other text)
    · exact ends_throw _ _

theorem exists_leaf (ts : List Token) (s : State) : ∃ r s', Leaf ts s r s' := by
  cases field : ts[s.pos]? with
  | none => exact ⟨_, _, .noField field⟩
  | some x =>
    by_cases word : ∃ name, x.kind = .word name
    · obtain ⟨kind, o⟩ := x
      obtain ⟨name, rfl⟩ := word
      cases sign : ts[s.skipped.pos]? with
      | none => exact ⟨_, _, .noComparator field sign⟩
      | some y =>
        by_cases comparator : ∃ c, y.kind = .comparator c
        · obtain ⟨kind, p⟩ := y
          obtain ⟨c, rfl⟩ := comparator
          cases value : ts[s.skipped.skipped.pos]? with
          | none => exact ⟨_, _, .noLiteral field sign value⟩
          | some z =>
            by_cases literal : ∃ text, IsLiteral z.kind text
            · obtain ⟨text, literal⟩ := literal
              exact ⟨_, _, .condition name c o p z.offset field sign value literal⟩
            · exact ⟨_, _, .notLiteral field sign value (not_exists.1 literal)⟩
        · exact ⟨_, _, .notComparator field sign (not_exists.1 comparator)⟩
    · exact ⟨_, _, .notField field (not_exists.1 word)⟩

/-! ### Calls end as told -/

theorem ends_term_bare {n : Nat} (bare : ∀ o, ts[s.pos]? ≠ some ⟨.openParen, o⟩)
    (h : Ends (condition ts) s r s') : Ends (Call.term.run limit ts n) s r s' := by
  rw [Call.run]
  apply Ends.bind (ends_peek ts s)
  split
  · exact absurd ‹_› (bare _)
  · exact h

theorem ends_term_open {n o : Nat} (opens : ts[s.pos]? = some ⟨.openParen, o⟩)
    (h : Ends (do
      openGroup limit o
      let tree ← Call.expression.run limit ts (n + 1)
      closeGroup ts o
      return tree) s r s') : Ends (Call.term.run limit ts n) s r s' := by
  rw [Call.run]
  apply Ends.bind (ends_peek ts s)
  rw [opens]
  exact h

theorem ends_joined_last {n : Nat} (t : Tree) (ends : EndsGroup ts[s.pos]?) :
    Ends ((Call.joined t).run limit ts n) s (.ok t) s := by
  rw [Call.run]
  apply Ends.bind (ends_peek ts s)
  cases found : ts[s.pos]? with
  | none => exact ends_pure t s
  | some x =>
    obtain ⟨noCombinator, noAmpersand, noBar⟩ := ends x found
    dsimp only
    split
    · exact absurd ‹_› (noCombinator _)
    · exact absurd ‹_› noAmpersand
    · exact absurd ‹_› noBar
    · exact ends_pure t s

theorem ends_joined_more {n o : Nat} (t : Tree) (k : Combinator)
    (joins : ts[s.pos]? = some ⟨.combinator k, o⟩)
    (h : Ends (do
      let right ← Call.term.run limit ts n
      (Call.joined (.operator k t right)).run limit ts n) s.skipped r s') :
    Ends ((Call.joined t).run limit ts n) s r s' := by
  rw [Call.run]
  apply Ends.bind (ends_peek ts s)
  rw [joins]
  exact .bind (ends_modify .skipped s) h

theorem Evaluates.ends {call : Call} {n : Nat} (h : Evaluates limit ts call n s r s') :
    Ends (call.run limit ts n) s r s' := by
  induction h with
  | leaf bare condition => exact ends_term_bare bare condition.ends
  | tooDeep opens deep =>
    apply ends_term_open opens
    exact .bind_error (ends_openGroup_error deep)
  | groupFails opens fits _ inner =>
    apply ends_term_open opens
    exact .bind (ends_openGroup fits) (.bind_error inner)
  | endless opens fits _ ended inner =>
    apply ends_term_open opens
    apply Ends.bind (ends_openGroup fits)
    exact .bind inner (.bind_error (.bind_error (ends_advance_end .closeParen ended)))
  | unclosed opens fits _ found other inner =>
    apply ends_term_open opens
    apply Ends.bind (ends_openGroup fits)
    exact .bind inner (.bind_error (ends_closeGroup_error found other))
  | group opens fits _ closes inner =>
    apply ends_term_open opens
    apply Ends.bind (ends_openGroup fits)
    exact .bind inner (.bind (ends_closeGroup closes) (ends_pure _ _))
  | firstFails _ first =>
    rw [Call.run]
    exact .bind (ends_modify _ _) (.bind_error first)
  | first _ _ first others =>
    rw [Call.run]
    exact .bind (ends_modify _ _) (.bind first others)
  | last t ends => exact ends_joined_last t ends
  | @unsupported n s x t found sign =>
    rw [Call.run]
    apply Ends.bind (ends_peek ts s)
    rw [found]
    obtain ⟨kind, o⟩ := x
    obtain rfl | rfl : kind = .doubleAmpersand ∨ kind = .doubleBar := sign
    · exact ends_throw _ s
    · exact ends_throw _ s
  | rightFails t k joins _ right => exact ends_joined_more t k joins (.bind_error right)
  | more t k joins _ _ right others => exact ends_joined_more t k joins (.bind right others)

end

end Descent

end Parser

end RecordRules
