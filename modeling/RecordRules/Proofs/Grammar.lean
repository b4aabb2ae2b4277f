import RecordRules.Tree.Parser

/-!
# The grammar of rules

What the parser means, without its states: which rows of tokens are terms and expressions, of which
tree, and how many parentheses a row opens at once. Where a token stands in the text is no part of
it, so a row is one of token kinds.
-/

namespace RecordRules

namespace Parser

open Token (Kind)

/-- What a row of tokens can be read as. -/
inductive Part
  | term
  | expression
  deriving DecidableEq

/-- A bare word or a string in quotes: what can stand for a literal. -/
inductive IsLiteral : Kind → String → Prop
  | word (text : String) : IsLiteral (.word text) text
  | quoted (text : String) : IsLiteral (.quoted text) text

/-- A row of tokens and its tree. An expression is a term, followed by any number of combinators and
terms, each of which takes what stands before it as its left side. -/
inductive Derives : Part → List Kind → Tree → Prop
  | condition {kind : Kind} {text : String} (name : String) (c : Comparator)
      (literal : IsLiteral kind text) :
      Derives .term [.word name, .comparator c, kind] (.operand ⟨name, c, .ofText text⟩)
  | group {ks : List Kind} {t : Tree} (inner : Derives .expression ks t) :
      Derives .term (.openParen :: ks ++ [.closeParen]) t
  | first {ks : List Kind} {t : Tree} (only : Derives .term ks t) : Derives .expression ks t
  | more {ks ls : List Kind} {l r : Tree} (kind : Combinator) (left : Derives .expression ks l)
      (right : Derives .term ls r) :
      Derives .expression (ks ++ .combinator kind :: ls) (.operator kind l r)

theorem Derives.exists_joined {part : Part} {ks ls : List Kind} {t u : Tree}
    (ht : Derives .expression ks t) (kind : Combinator) (hu : Derives part ls u) :
    ∃ joined, Derives .expression (ks ++ .combinator kind :: ls) joined := by
  induction hu with
  | condition name c literal => exact ⟨_, .more kind ht (.condition name c literal)⟩
  | group inner _ => exact ⟨_, .more kind ht (.group inner)⟩
  | first _ ih => exact ih
  | more kind' _ right ih _ =>
    obtain ⟨joined, h⟩ := ih
    exact ⟨_, by simpa using h.more kind' right⟩

theorem Derives.not_mem {part : Part} {ks : List Kind} {t : Tree} (h : Derives part ks t) :
    .doubleAmpersand ∉ ks ∧ .doubleBar ∉ ks ∧ .exclamation ∉ ks := by
  induction h with
  | condition name c literal => cases literal <;> simp
  | group _ ih => simpa using ih
  | first _ ih => exact ih
  | more kind _ _ ihl ihr => simp [ihl, ihr]

/-- The three tokens of a leaf stand side by side. -/
theorem Derives.exists_leaf {part : Part} {ks : List Kind} {t : Tree} (h : Derives part ks t)
    {c : Condition} (hc : c ∈ t.conditions) :
    ∃ kind text, [.word c.field, .comparator c.comparator, kind] <:+: ks ∧ IsLiteral kind text ∧
      c.literal = .ofText text := by
  induction h with
  | @condition kind text name comparator literal =>
    obtain rfl := List.mem_singleton.1 hc
    exact ⟨kind, text, List.infix_rfl, literal, rfl⟩
  | @group ks t inner ih =>
    obtain ⟨kind, text, leaf, hliteral⟩ := ih hc
    have inside : ks <:+: .openParen :: ks ++ [.closeParen] := ⟨[.openParen], [.closeParen], rfl⟩
    exact ⟨kind, text, leaf.trans inside, hliteral⟩
  | first only ih => exact ih hc
  | @more ks ls l r combinator left right ihl ihr =>
    rcases List.mem_append.1 hc with hc | hc
    · obtain ⟨kind, text, leaf, hliteral⟩ := ihl hc
      exact ⟨kind, text, leaf.trans (List.prefix_append ks _).isInfix, hliteral⟩
    · obtain ⟨kind, text, leaf, hliteral⟩ := ihr hc
      have behind : ls <:+ ks ++ .combinator combinator :: ls :=
        (List.suffix_cons _ ls).trans (List.suffix_append ks _)
      exact ⟨kind, text, leaf.trans behind.isInfix, hliteral⟩

/-! ## Open parentheses -/

/-- How many parentheses are open after a token, of `opened` before it. -/
def openAfter (opened : Nat) : Kind → Nat
  | .openParen => opened + 1
  | .closeParen => opened - 1
  | _ => opened

/-- The greatest number of parentheses open at once, of `opened` before the first token. -/
def maxOpen (opened : Nat) : List Kind → Nat
  | [] => opened
  | k :: ks => max opened (maxOpen (openAfter opened k) ks)

theorem le_maxOpen (opened : Nat) (ks : List Kind) : opened ≤ maxOpen opened ks := by
  cases ks with
  | nil => exact Nat.le_refl opened
  | cons k ks => exact Nat.le_max_left _ _

theorem maxOpen_append (opened : Nat) (ks ls : List Kind) :
    maxOpen opened (ks ++ ls) = max (maxOpen opened ks) (maxOpen (ks.foldl openAfter opened) ls) := by
  induction ks generalizing opened with
  | nil => simp [maxOpen, le_maxOpen]
  | cons k ks ih => simp only [List.cons_append, maxOpen, List.foldl_cons, ih, Nat.max_assoc]

theorem Derives.foldl_openAfter {part : Part} {ks : List Kind} {t : Tree} (h : Derives part ks t)
    (opened : Nat) : ks.foldl openAfter opened = opened := by
  induction h generalizing opened with
  | condition name c literal => cases literal <;> rfl
  | group _ ih => simp [openAfter, ih]
  | first _ ih => exact ih opened
  | more kind _ _ ihl ihr => simp [openAfter, ihl, ihr]

theorem maxOpen_condition {kind : Kind} {text : String} (opened : Nat) (name : String)
    (c : Comparator) (literal : IsLiteral kind text) :
    maxOpen opened [.word name, .comparator c, kind] = opened := by
  cases literal <;> simp [maxOpen, openAfter]

theorem Derives.maxOpen_group {ks : List Kind} {t : Tree} (h : Derives .expression ks t)
    (opened : Nat) :
    maxOpen opened (.openParen :: ks ++ [.closeParen]) = maxOpen (opened + 1) ks := by
  have := le_maxOpen (opened + 1) ks
  simp only [List.cons_append, maxOpen, maxOpen_append, openAfter, h.foldl_openAfter]
  omega

/-- What stands side by side does not add up. -/
theorem Derives.maxOpen_joined {ks : List Kind} {t : Tree} (h : Derives .expression ks t)
    (opened : Nat) (kind : Combinator) (ls : List Kind) :
    maxOpen opened (ks ++ .combinator kind :: ls) =
      max (maxOpen opened ks) (maxOpen opened ls) := by
  have := le_maxOpen opened ls
  simp only [maxOpen_append, maxOpen, openAfter, h.foldl_openAfter]
  omega

/-- One more parenthesis around a part is one more open at once. -/
theorem Derives.maxOpen_succ {part : Part} {ks : List Kind} {t : Tree} (h : Derives part ks t)
    (opened : Nat) : maxOpen (opened + 1) ks = maxOpen opened ks + 1 := by
  induction h generalizing opened with
  | condition name c literal =>
    rw [maxOpen_condition _ _ _ literal, maxOpen_condition _ _ _ literal]
  | group inner ih => rw [inner.maxOpen_group, inner.maxOpen_group, ih]
  | first _ ih => exact ih opened
  | more kind left _ ihl ihr =>
    rw [left.maxOpen_joined, left.maxOpen_joined, ihl, ihr]
    omega

end Parser

end RecordRules
