import RecordRules.Proofs.ScientificText
import RecordRules.Proofs.WrittenJson

/-!
# The grammar of JSON text

Which texts stand for which document, without the steps of the reader: values, with white space
between any two parts of a text. A number that is too large and a string with half of a surrogate
pair are well written, and parts that cannot be read.
-/

namespace RecordRules.Json

open Reader (Piece pieces? joined? string? escaped? unit? number? digits? whole? fraction? exponent?
  spaces)
open NumberText (fractionChars)
open Literal (signChars)

/-! ## Parts of a text -/

def IsBlank (cs : List Char) : Prop := ∀ c ∈ cs, c ∈ spaces

/-- A power of ten as it is written: a mark, a sign if there is one, and digits. -/
inductive WritesExponent : Option Int → List Char → Prop
  | absent : WritesExponent none []
  | marked {mark : Char} {sign digits : List Char} {negative : Bool}
      (isMark : mark = 'e' ∨ mark = 'E')
      (isSign : sign = signChars negative ∨ sign = ['+'] ∧ negative = false) (hne : digits ≠ [])
      (all : ∀ c ∈ digits, c.isDigit) :
      WritesExponent (some (if negative then -(Nat.ofDigitChars 10 digits 0 : Int)
        else Nat.ofDigitChars 10 digits 0)) (mark :: (sign ++ digits))

structure WritesNumber (t : NumberText) (cs : List Char) : Prop where
  grammatical : t.IsGrammatical
  exists_exponent : ∃ es, WritesExponent t.exponent es ∧
    cs = signChars t.negative ++ (t.whole ++ (fractionChars t.fraction ++ es))

inductive WritesPiece : Piece → List Char → Prop
  | unit {a b c d : Char} {n : Nat} (digits : unit? a b c d = some n) :
      WritesPiece (.unit n) ['\\', 'u', a, b, c, d]
  | escaped {c e : Char} (listed : escaped? c = some e) : WritesPiece (.char e) ['\\', c]
  | plain {c : Char} (quote : c ≠ '"') (backslash : c ≠ '\\') (control : ¬ c.toNat < 0x20) :
      WritesPiece (.char c) [c]

inductive WritesPieces : List Piece → List Char → Prop
  | nil : WritesPieces [] []
  | cons {p : Piece} {ps : List Piece} {cs ds : List Char} (first : WritesPiece p cs)
      (rest : WritesPieces ps ds) : WritesPieces (p :: ps) (cs ++ ds)

inductive WritesString : Option String → List Char → Prop
  | quoted {ps : List Piece} {cs : List Char} (pieces : WritesPieces ps cs) :
      WritesString ((joined? ps).map String.ofList) ('"' :: (cs ++ ['"']))

/-- Parts behind the first one, each after a comma. -/
def continued (parts : List (List Char)) : List Char := parts.flatMap (',' :: ·)

theorem continued_cons (part : List Char) (parts : List (List Char)) (rest : List Char) :
    continued (part :: parts) ++ rest = ',' :: (part ++ (continued parts ++ rest)) := by
  simp [continued]

theorem length_continued_cons (part : List Char) (parts : List (List Char)) :
    (continued (part :: parts)).length = (part ++ continued parts).length + 1 := by
  simp [continued]

/-- Parts with commas between them, or white space where there are none. -/
inductive Separated : List (List Char) → List Char → Prop
  | empty {space : List Char} (blank : IsBlank space) : Separated [] space
  | cons (first : List Char) (rest : List (List Char)) :
      Separated (first :: rest) (first ++ continued rest)

/-- A value, its text and the white space around it. -/
structure Item where
  before : List Char
  core : List Char
  after : List Char
  value : Document

namespace Item

def chars (i : Item) : List Char := i.before ++ (i.core ++ i.after)

def IsSpaced (i : Item) : Prop := IsBlank i.before ∧ IsBlank i.after

end Item

/-- A key, its text and the white space around it, and the item behind the colon. -/
structure Member where
  before : List Char
  name : List Char
  after : List Char
  key : Option String
  item : Item

namespace Member

def chars (m : Member) : List Char := m.before ++ (m.name ++ (m.after ++ ':' :: m.item.chars))

def IsSpaced (m : Member) : Prop := IsBlank m.before ∧ IsBlank m.after ∧ m.item.IsSpaced

def toPair (m : Member) : Option String × Document := (m.key, m.item.value)

end Member

/-- The texts of a document. -/
inductive TextOf : List Char → Document → Prop
  | null : TextOf ['n', 'u', 'l', 'l'] .null
  | bool (b : Bool) :
      TextOf (if b then ['t', 'r', 'u', 'e'] else ['f', 'a', 'l', 's', 'e']) (.bool b)
  | number {t : NumberText} {cs : List Char} (written : WritesNumber t cs) :
      TextOf cs (.number t.toNumber?)
  | string {s : Option String} {cs : List Char} (written : WritesString s cs) :
      TextOf cs (.string s)
  | array {items : List Item} {body : List Char} (spaced : ∀ i ∈ items, i.IsSpaced)
      (each : ∀ i ∈ items, TextOf i.core i.value) (laid : Separated (items.map Item.chars) body) :
      TextOf ('[' :: (body ++ [']'])) (.array (items.map Item.value))
  | object {members : List Member} {body : List Char} (spaced : ∀ m ∈ members, m.IsSpaced)
      (named : ∀ m ∈ members, WritesString m.key m.name)
      (each : ∀ m ∈ members, TextOf m.item.core m.item.value)
      (laid : Separated (members.map Member.chars) body) :
      TextOf ('\x7b' :: (body ++ ['\x7d'])) (.object (members.map Member.toPair))

/-! ## Numbers -/

section
variable {cs rest : List Char}

theorem of_digits? {digits : List Char} (h : digits? cs = some (digits, rest)) :
    cs = digits ++ rest ∧ digits ≠ [] ∧ ∀ c ∈ digits, c.isDigit := by
  have parts := List.takeWhile_append_dropWhile (p := Char.isDigit) (l := cs)
  have all : ∀ c ∈ cs.takeWhile Char.isDigit, c.isDigit := fun c hc =>
    List.all_eq_true.1 List.all_takeWhile c hc
  unfold digits? at h
  rw [List.span_eq_takeWhile_dropWhile] at h
  split at h
  · cases h
  · rename_i nonempty span
    cases h
    obtain ⟨taken, left⟩ := Prod.mk.inj span
    rw [taken, left] at parts
    rw [taken] at all
    exact ⟨parts.symm, nonempty, all⟩

theorem of_whole? {digits : List Char} (h : whole? cs = some (digits, rest)) :
    cs = digits ++ rest ∧ digits ≠ [] ∧ (∀ c ∈ digits, c.isDigit) ∧
      (digits = ['0'] ∨ digits.head? ≠ some '0') := by
  unfold whole? at h
  split at h
  · cases h
    exact ⟨rfl, by decide, List.forall_mem_singleton.2 (by decide), .inl rfl⟩
  · rename_i other
    obtain ⟨rfl, hne, all⟩ := of_digits? h
    refine ⟨rfl, hne, all, .inr fun zero => ?_⟩
    obtain ⟨tail, rfl⟩ := List.head?_eq_some_iff.1 zero
    exact other _ rfl

theorem of_fraction? {fraction : Option (List Char)} (h : fraction? cs = some (fraction, rest)) :
    cs = fractionChars fraction ++ rest ∧
      ∀ digits ∈ fraction, digits ≠ [] ∧ ∀ c ∈ digits, c.isDigit := by
  unfold fraction? at h
  split at h
  · obtain ⟨⟨digits, after⟩, read, h⟩ := Option.map_eq_some_iff.1 h
    cases h
    obtain ⟨rfl, hne, all⟩ := of_digits? read
    refine ⟨rfl, fun digits' h => ?_⟩
    obtain rfl := Option.some.inj h
    exact ⟨hne, all⟩
  · cases h
    exact ⟨rfl, fun _ h => nomatch h⟩

theorem of_takeSign {negative : Bool} (h : Decimal.takeSign cs = (negative, rest)) :
    ∃ sign, cs = sign ++ rest ∧
      (sign = signChars negative ∨ sign = ['+'] ∧ negative = false) := by
  unfold Decimal.takeSign Decimal.takeMinus at h
  split at h
  · cases h
    exact ⟨['+'], rfl, .inr ⟨rfl, rfl⟩⟩
  · split at h
    · cases h
      exact ⟨['-'], rfl, .inl rfl⟩
    · cases h
      exact ⟨[], rfl, .inl rfl⟩

theorem of_exponent? {e : Option Int} (h : exponent? cs = some (e, rest)) :
    ∃ es, cs = es ++ rest ∧ WritesExponent e es := by
  unfold exponent? at h
  split at h
  · rename_i c after
    split at h
    · rename_i mark
      cases sign : Decimal.takeSign after with
      | mk negative behind =>
        rw [sign] at h
        obtain ⟨⟨digits, last⟩, read, h⟩ := Option.map_eq_some_iff.1 h
        cases h
        obtain ⟨rfl, hne, all⟩ := of_digits? read
        obtain ⟨signs, rfl, isSign⟩ := of_takeSign sign
        exact ⟨c :: (signs ++ digits), by simp, .marked mark isSign hne all⟩
    · cases h
      exact ⟨[], rfl, .absent⟩
  · cases h
    exact ⟨[], rfl, .absent⟩

theorem of_number? {t : NumberText} (h : number? cs = some (t, rest)) :
    ∃ text, cs = text ++ rest ∧ WritesNumber t text := by
  unfold number? at h
  cases sign : Decimal.takeMinus cs with
  | mk negative afterSign =>
    rw [sign] at h
    simp only [Option.bind_eq_bind, Option.bind_eq_some_iff] at h
    obtain ⟨⟨whole, afterWhole⟩, hwhole, ⟨fraction, afterFraction⟩, hfraction,
      ⟨exponent, afterExponent⟩, hexponent, h⟩ := h
    cases h
    obtain ⟨rfl, hne, all, zero⟩ := of_whole? hwhole
    obtain ⟨rfl, digits⟩ := of_fraction? hfraction
    obtain ⟨es, rfl, written⟩ := of_exponent? hexponent
    refine ⟨signChars negative ++ (whole ++ (fractionChars fraction ++ es)), ?_,
      ⟨hne, all, zero, digits⟩, es, written, rfl⟩
    rw [Literal.eq_of_takeMinus sign]
    simp

variable (ends : EndsNumber rest)
include ends

theorem WritesExponent.head? {e : Option Int} {es : List Char} (h : WritesExponent e es) :
    ∀ c ∈ (es ++ rest).head?, c.isDigit = false ∧ c ≠ '.' := by
  intro c hc
  cases h with
  | absent =>
    obtain ⟨digit, mark⟩ := ends c hc
    exact ⟨digit, fun point => mark (by simp [point])⟩
  | @marked mark sign digits negative isMark isSign hne all =>
    obtain rfl : mark = c := by simpa using hc
    rcases isMark with rfl | rfl <;> exact ⟨by decide, by decide⟩

theorem WritesExponent.exponent? {e : Option Int} {es : List Char} (h : WritesExponent e es) :
    exponent? (es ++ rest) = some (e, rest) := by
  cases h with
  | absent => exact Reader.exponent?_append ends none
  | @marked mark sign digits negative isMark isSign hne all =>
    have read := Reader.digits?_append hne all fun c hc => (ends c hc).1
    have signed : Decimal.takeSign (sign ++ (digits ++ rest)) = (negative, digits ++ rest) := by
      rcases isSign with rfl | ⟨rfl, rfl⟩
      · obtain ⟨d, ds, rfl⟩ := List.exists_cons_of_ne_nil hne
        refine Decimal.takeSign_signed ?_ negative
        intro c hc
        obtain rfl : d = c := by simpa using hc
        exact .inl (all d List.mem_cons_self)
      · rfl
    rw [List.cons_append, List.append_assoc, Reader.exponent?, if_pos isMark, signed]
    simp [read]

theorem WritesNumber.number? {t : NumberText} (h : WritesNumber t cs) :
    number? (cs ++ rest) = some (t, rest) := by
  obtain ⟨grammatical, es, written, rfl⟩ := h
  have stop := written.head? ends
  have sign := Literal.takeMinus_signed t.negative grammatical.ne_nil grammatical.digits
    (fractionChars t.fraction ++ (es ++ rest))
  have after : ∀ c ∈ (fractionChars t.fraction ++ (es ++ rest)).head?, c.isDigit = false := by
    intro c hc
    cases hf : t.fraction with
    | none =>
      rw [hf] at hc
      exact (stop c hc).1
    | some digits =>
      obtain rfl : '.' = c := by simpa [hf, fractionChars] using hc
      decide
  have whole := Reader.whole?_append grammatical.ne_nil grammatical.digits grammatical.noZeroInFront
    after
  have fraction := Reader.fraction?_fractionChars grammatical.fraction stop
  have exponent := written.exponent? ends
  rw [Reader.number?, List.append_assoc, List.append_assoc, List.append_assoc, sign]
  simp [whole, fraction, exponent]

end

/-! ## Strings -/

section
variable {cs rest : List Char}

theorem WritesPiece.pieces? {p : Piece} (h : WritesPiece p cs) (rest : List Char) :
    pieces? (cs ++ rest) = (pieces? rest).map fun (ps, rest) => (p :: ps, rest) := by
  cases h with
  | unit digits =>
    simp only [List.cons_append, List.nil_append, Reader.pieces?, digits]
    cases Reader.pieces? rest <;> rfl
  | escaped listed => exact Reader.pieces?_escaped listed rest
  | plain quote backslash control => exact Reader.pieces?_plain quote backslash control rest

theorem WritesPieces.pieces? {ps : List Piece} (h : WritesPieces ps cs) (rest : List Char) :
    pieces? (cs ++ '"' :: rest) = some (ps, rest) := by
  induction h with
  | nil => rfl
  | cons first _ ih => rw [List.append_assoc, first.pieces?, ih, Option.map_some]

theorem of_pieces? {ps : List Piece} (h : pieces? cs = some (ps, rest)) :
    ∃ body, cs = body ++ '"' :: rest ∧ WritesPieces ps body := by
  fun_induction Reader.pieces? cs generalizing ps with
  | case1 cs =>
    cases h
    exact ⟨[], rfl, .nil⟩
  | case2 a b c d cs ih =>
    simp only [Option.bind_eq_bind, Option.bind_eq_some_iff] at h
    obtain ⟨n, digits, ⟨tail, after⟩, read, h⟩ := h
    cases h
    obtain ⟨body, rfl, written⟩ := ih read
    exact ⟨['\\', 'u', a, b, c, d] ++ body, rfl, .cons (.unit digits) written⟩
  | case3 c cs _ ih =>
    simp only [Option.bind_eq_bind, Option.bind_eq_some_iff] at h
    obtain ⟨e, listed, ⟨tail, after⟩, read, h⟩ := h
    cases h
    obtain ⟨body, rfl, written⟩ := ih read
    exact ⟨['\\', c] ++ body, rfl, .cons (.escaped listed) written⟩
  | case4 => cases h
  | case5 c cs quote other short control ih =>
    simp only [Option.bind_eq_bind, Option.bind_eq_some_iff] at h
    obtain ⟨⟨tail, after⟩, read, h⟩ := h
    cases h
    obtain ⟨body, rfl, written⟩ := ih read
    have backslash : c ≠ '\\' := by
      obtain ⟨d, ds, next⟩ := List.exists_cons_of_ne_nil
        (show body ++ '"' :: after ≠ [] by simp)
      exact fun escape => short d ds escape next
    exact ⟨[c] ++ body, rfl, .cons (.plain quote backslash control) written⟩
  | case6 => cases h

theorem WritesString.string? {s : Option String} (h : WritesString s cs) : ∃ body,
    cs = '"' :: body ∧ ∀ rest, string? (body ++ rest) = some (s, rest) := by
  obtain @⟨ps, cs, pieces⟩ := h
  refine ⟨cs ++ ['"'], rfl, fun rest => ?_⟩
  have read := pieces.pieces? rest
  rw [List.append_assoc, List.singleton_append, Reader.string?, read]
  rfl

theorem of_string? {s : Option String} (h : string? cs = some (s, rest)) :
    ∃ body, cs = body ++ rest ∧ WritesString s ('"' :: body) := by
  simp only [Reader.string?, Option.bind_eq_bind, Option.bind_eq_some_iff] at h
  obtain ⟨⟨ps, after⟩, read, h⟩ := h
  obtain ⟨rfl, rfl⟩ := Prod.mk.inj (Option.some.inj h)
  obtain ⟨body, rfl, pieces⟩ := of_pieces? read
  exact ⟨body ++ ['"'], by simp, .quoted pieces⟩

end

end RecordRules.Json
