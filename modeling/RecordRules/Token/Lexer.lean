import RecordRules.Text.CharacterSets
import RecordRules.Token.Basic

/-!
# From rule text to tokens

White space separates tokens and is dropped. At any other place the text has to start with a lexeme:
a string in quotes, an operator, a number or a word, of which the longest is taken.
-/

namespace RecordRules

/-- A place where no lexeme starts, and the text from there to the next white space. -/
structure LexError where
  offset : Nat
  fragment : String
  deriving DecidableEq, Repr

namespace Token

/-- A lexeme at the start of a text: what it is and how many characters it has. -/
structure Lexeme where
  kind : Kind
  length : Nat

/-- A string in quotes `q`, after its first quote. -/
def quotedLexeme? (q : Char) (rest : List Char) : Option Lexeme :=
  let body := rest.takeWhile (· != q)
  if (rest.drop body.length).isEmpty then none
  else some ⟨.quoted (String.ofList (q :: body ++ [q])), body.length + 2⟩

def operatorLexeme? : List Char → Option Lexeme
  | '=' :: '>' :: _ => some ⟨.comparator .gteq, 2⟩
  | '<' :: '=' :: _ => some ⟨.comparator .lteq, 2⟩
  | '>' :: '=' :: _ => some ⟨.comparator .gteq, 2⟩
  | '!' :: '=' :: _ => some ⟨.comparator .neq, 2⟩
  | '&' :: '&' :: _ => some ⟨.doubleAmpersand, 2⟩
  | '|' :: '|' :: _ => some ⟨.doubleBar, 2⟩
  | '(' :: _ => some ⟨.openParen, 1⟩
  | ')' :: _ => some ⟨.closeParen, 1⟩
  | '=' :: _ => some ⟨.comparator .eq, 1⟩
  | '<' :: _ => some ⟨.comparator .lt, 1⟩
  | '>' :: _ => some ⟨.comparator .gt, 1⟩
  | '!' :: _ => some ⟨.exclamation, 1⟩
  | _ => none

/-- No word goes on here. -/
def atWordEnd : List Char → Bool
  | c :: _ => !Text.isWordChar c
  | [] => true

/-- The fraction after the whole digits of a number: a point and digits at the end of a word. -/
def fractionOf (rest : List Char) : List Char :=
  match rest with
  | '.' :: rest =>
    let digits := rest.takeWhile Text.isDecimalDigit
    if digits.isEmpty || !atWordEnd (rest.drop digits.length) then [] else '.' :: digits
  | _ => []

/-- A number: a sign if there is one, digits of any script up to the end of a word, and a
fraction. -/
def number? (cs : List Char) : Option (List Char) :=
  let sign := match cs with
    | '-' :: _ => ['-']
    | _ => []
  let whole := (cs.drop sign.length).takeWhile Text.isDecimalDigit
  let rest := cs.drop (sign.length + whole.length)
  if whole.isEmpty || !atWordEnd rest then none else some (sign ++ whole ++ fractionOf rest)

def wordKind (word : List Char) : Kind :=
  let text := String.ofList word
  match Combinator.ofKeyword? text with
  | some k => .combinator k
  | none => .word text

def wordLexeme? (cs : List Char) : Option Lexeme :=
  match number? cs with
  | some number => some ⟨.word (String.ofList number), number.length⟩
  | none =>
    let word := cs.takeWhile Text.isWordChar
    if word.isEmpty then none else some ⟨wordKind word, word.length⟩

def lexeme? (cs : List Char) : Option Lexeme :=
  match cs with
  | '\'' :: rest => quotedLexeme? '\'' rest
  | '"' :: rest => quotedLexeme? '"' rest
  | cs => (operatorLexeme? cs).or (wordLexeme? cs)

/-- Reads on at a byte offset; the first `inside` characters belong to the token before. -/
def scan (inside offset : Nat) : List Char → Except LexError (List Token)
  | [] => .ok []
  | c :: rest =>
    let next := offset + c.utf8Size
    match inside with
    | inside + 1 => scan inside next rest
    | 0 =>
      if Text.isWhiteSpace c then scan 0 next rest
      else match lexeme? (c :: rest) with
        | some l => do return ⟨l.kind, offset⟩ :: (← scan (l.length - 1) next rest)
        | none =>
          .error ⟨offset, String.ofList ((c :: rest).takeWhile fun c => !Text.isWhiteSpace c)⟩

def tokenize (text : String) : Except LexError (List Token) := scan 0 0 text.toList

end Token

end RecordRules
