import RecordRules.Token.Lexer

/-!
# What follows a lexeme does not change it

A lexeme is found by the characters up to its end and one more. So a text that splits into tokens
splits in the same way before any text that does not go on its last lexeme.
-/

namespace RecordRules

namespace Token

open Text (isWordChar isDecimalDigit isWhiteSpace)

/-- A character that can go on a lexeme before it: a word, a number or a sign. -/
def goesOn (c : Char) : Bool := isWordChar c || ['.', '=', '>', '&', '|'].contains c

/-- A text whose start goes on no lexeme before it. -/
def StartsApart (rest : List Char) : Prop := ∀ c ∈ rest.head?, goesOn c = false

theorem startsApart_cons {c : Char} {rest : List Char} :
    StartsApart (c :: rest) ↔ goesOn c = false := by simp [StartsApart]

theorem goesOn_eq_false_of_isWhiteSpace {c : Char} (h : isWhiteSpace c) : goesOn c = false := by
  have word : isWordChar c = false := Bool.eq_false_iff.2 fun hw => by
    simp [Text.isWhiteSpace_eq_false_of_isWordChar hw] at h
  have sign : ['.', '=', '>', '&', '|'].all (fun d => !isWhiteSpace d) := by decide
  have notSign : ['.', '=', '>', '&', '|'].contains c = false := Bool.eq_false_iff.2 fun hc => by
    have := List.all_eq_true.1 sign c (List.contains_iff_mem.1 hc)
    simp [h] at this
  rw [goesOn, word, notSign]
  rfl

/-- A text whose start goes on no word and no number before it. -/
def EndsWord (rest : List Char) : Prop := ∀ c ∈ rest.head?, isWordChar c = false ∧ c ≠ '.'

theorem StartsApart.endsWord {rest : List Char} (h : StartsApart rest) : EndsWord rest := by
  intro c hc
  have apart := h c hc
  simp only [goesOn, Bool.or_eq_false_iff] at apart
  refine ⟨apart.1, ?_⟩
  rintro rfl
  simp at apart

/-! ## Runs of characters -/

theorem takeWhile_append {p : Char → Bool} {rest : List Char} (h : ∀ c ∈ rest.head?, p c = false)
    (cs : List Char) : (cs ++ rest).takeWhile p = cs.takeWhile p := by
  induction cs with
  | nil =>
    cases rest with
    | nil => rfl
    | cons c rest => simp [h c rfl]
  | cons c cs ih => simp [List.takeWhile_cons, ih]

theorem drop_length_takeWhile (p : Char → Bool) (cs : List Char) :
    cs.drop (cs.takeWhile p).length = cs.dropWhile p := by
  induction cs with
  | nil => rfl
  | cons c cs ih => by_cases h : p c <;> simp [h, ih]

theorem length_takeWhile_le (p : Char → Bool) (cs : List Char) :
    (cs.takeWhile p).length ≤ cs.length :=
  (List.takeWhile_prefix p).length_le

/-! ## Strings in quotes -/

theorem quotedLexeme?_eq_some_iff {q : Char} {cs : List Char} {l : Lexeme} :
    quotedLexeme? q cs = some l ↔ ∃ body rest, cs = body ++ q :: rest ∧ q ∉ body ∧
      l = ⟨.quoted (String.ofList (q :: body ++ [q])), body.length + 2⟩ := by
  constructor
  · intro hl
    have split := List.takeWhile_append_dropWhile (p := (· != q)) (l := cs)
    have stop := List.head?_dropWhile_not (· != q) cs
    have notMem : q ∉ cs.takeWhile (· != q) := fun hq => by
      simpa using List.all_eq_true.1 List.all_takeWhile q hq
    simp only [quotedLexeme?, drop_length_takeWhile] at hl
    cases hrest : cs.dropWhile (· != q) with
    | nil => simp [hrest] at hl
    | cons c rest =>
      obtain rfl : c = q := by simpa [hrest] using stop
      refine ⟨_, rest, by rw [← hrest, split], notMem, ?_⟩
      simpa [hrest] using hl.symm
  · rintro ⟨body, rest, rfl, hbody, rfl⟩
    have all : ∀ c ∈ body, (c != q) = true := fun c hc => by
      simpa using fun h : c = q => hbody (h ▸ hc)
    simp [quotedLexeme?, List.takeWhile_append_of_pos all]

/-! ## Numbers with and without a sign -/

def unsigned? (cs : List Char) : Option (List Char) :=
  let whole := cs.takeWhile isDecimalDigit
  let rest := cs.drop whole.length
  if whole.isEmpty || !atWordEnd rest then none else some (whole ++ fractionOf rest)

theorem number?_minus (cs : List Char) : number? ('-' :: cs) = (unsigned? cs).map ('-' :: ·) := by
  simp only [number?, unsigned?, List.length_singleton, List.drop_succ_cons, List.drop_zero,
    Nat.add_comm 1]
  split <;> simp [*]

theorem number?_of_ne_minus {c : Char} (h : c ≠ '-') (cs : List Char) :
    number? (c :: cs) = unsigned? (c :: cs) := by
  unfold number? unsigned?
  split
  · exact absurd (List.cons.inj ‹_›).1 h
  · simp

/-! ## Operators of one and of two signs -/

def pairKind? (c d : Char) : Option Kind :=
  match c, d with
  | '=', '>' => some (.comparator .gteq)
  | '<', '=' => some (.comparator .lteq)
  | '>', '=' => some (.comparator .gteq)
  | '!', '=' => some (.comparator .neq)
  | '&', '&' => some .doubleAmpersand
  | '|', '|' => some .doubleBar
  | _, _ => none

def signKind? (c : Char) : Option Kind :=
  match c with
  | '(' => some .openParen
  | ')' => some .closeParen
  | '=' => some (.comparator .eq)
  | '<' => some (.comparator .lt)
  | '>' => some (.comparator .gt)
  | '!' => some .exclamation
  | _ => none

theorem operatorLexeme?_singleton (c : Char) :
    operatorLexeme? [c] = (signKind? c).map (⟨·, 1⟩) := by
  unfold operatorLexeme? signKind?
  split <;> simp_all

theorem operatorLexeme?_cons_cons (c d : Char) (cs : List Char) :
    operatorLexeme? (c :: d :: cs) =
      ((pairKind? c d).map (⟨·, 2⟩)).or ((signKind? c).map (⟨·, 1⟩)) := by
  cases h : pairKind? c d with
  | some k =>
    unfold pairKind? at h
    split at h <;> cases h <;> rfl
  | none =>
    unfold pairKind? at h
    split at h <;> cases h
    unfold operatorLexeme? signKind?
    split <;> simp_all

theorem pairKind?_eq_none {c d : Char} (h : goesOn d = false) : pairKind? c d = none := by
  unfold pairKind?
  split <;> first | rfl | exact absurd h (by decide)

theorem operatorLexeme?_eq_none {c : Char} (h : isWordChar c ∨ c = '-') (cs : List Char) :
    operatorLexeme? (c :: cs) = none := by
  have sign : signKind? c = none := by
    unfold signKind?
    split <;> first | rfl | exact absurd h (by decide)
  have pair (d : Char) : pairKind? c d = none := by
    unfold pairKind?
    split <;> first | rfl | exact absurd h (by decide)
  cases cs with
  | nil => rw [operatorLexeme?_singleton, sign, Option.map_none]
  | cons d cs =>
    rw [operatorLexeme?_cons_cons, pair, sign, Option.map_none, Option.map_none, Option.or_none]

theorem isPrefix_fractionOf (cs : List Char) : fractionOf cs <+: cs := by
  unfold fractionOf
  split
  · dsimp only
    split
    · exact List.nil_prefix
    · exact List.cons_prefix_cons.2 ⟨rfl, List.takeWhile_prefix _⟩
  · exact List.nil_prefix

theorem unsigned?_eq_some_iff {cs n : List Char} :
    unsigned? cs = some n ↔ cs.takeWhile isDecimalDigit ≠ [] ∧
      atWordEnd (cs.dropWhile isDecimalDigit) ∧
        n = cs.takeWhile isDecimalDigit ++ fractionOf (cs.dropWhile isDecimalDigit) := by
  simp only [unsigned?, drop_length_takeWhile]
  split
  · rename_i h
    simp only [Bool.or_eq_true, List.isEmpty_iff, Bool.not_eq_true'] at h
    rcases h with h | h <;> simp [h]
  · rename_i h
    simp only [Bool.or_eq_true, List.isEmpty_iff, Bool.not_eq_true', not_or,
      Bool.not_eq_false] at h
    simp [h, eq_comm]

theorem isPrefix_of_unsigned? {cs n : List Char} (h : unsigned? cs = some n) :
    n ≠ [] ∧ n <+: cs := by
  obtain ⟨hne, -, rfl⟩ := unsigned?_eq_some_iff.1 h
  refine ⟨fun hnil => hne (List.append_eq_nil_iff.1 hnil).1, ?_⟩
  have := (List.prefix_append_right_inj (cs.takeWhile isDecimalDigit)).2
    (isPrefix_fractionOf (cs.dropWhile isDecimalDigit))
  rwa [List.takeWhile_append_dropWhile] at this

theorem isPrefix_of_number? {cs n : List Char} (h : number? cs = some n) : n ≠ [] ∧ n <+: cs := by
  cases cs with
  | nil => cases h
  | cons c cs =>
    by_cases hc : c = '-'
    · subst hc
      rw [number?_minus] at h
      obtain ⟨digits, hdigits, rfl⟩ := Option.map_eq_some_iff.1 h
      exact ⟨List.cons_ne_nil _ _, List.cons_prefix_cons.2 ⟨rfl, (isPrefix_of_unsigned? hdigits).2⟩⟩
    · rw [number?_of_ne_minus hc] at h
      exact isPrefix_of_unsigned? h

theorem head_of_wordLexeme? {c : Char} {cs : List Char} {l : Lexeme}
    (h : wordLexeme? (c :: cs) = some l) : isWordChar c ∨ c = '-' := by
  by_cases hc : c = '-'
  · exact .inr hc
  refine .inl (Decidable.byContradiction fun hword => ?_)
  have digit : ¬ isDecimalDigit c := fun hd => hword (Text.isWordChar_of_isDecimalDigit hd)
  have number : number? (c :: cs) = none := by
    rw [number?_of_ne_minus hc]
    simp [unsigned?, digit]
  simp [wordLexeme?, number, hword] at h

/-! ## All lexemes -/

theorem lexeme?_quote {q : Char} (h : q = '\'' ∨ q = '"') (cs : List Char) :
    lexeme? (q :: cs) = quotedLexeme? q cs := by
  rcases h with rfl | rfl <;> rfl

theorem lexeme?_of_ne_quote {c : Char} (h : ¬ (c = '\'' ∨ c = '"')) (cs : List Char) :
    lexeme? (c :: cs) = (operatorLexeme? (c :: cs)).or (wordLexeme? (c :: cs)) := by
  unfold lexeme?
  split
  · exact absurd (.inl (List.cons.inj ‹_›).1) h
  · exact absurd (.inr (List.cons.inj ‹_›).1) h
  · rfl

/-! ## Words before a text that ends them -/

section
variable {rest : List Char} (h : EndsWord rest)
include h

theorem EndsWord.takeWhile_isWordChar (cs : List Char) :
    (cs ++ rest).takeWhile isWordChar = cs.takeWhile isWordChar :=
  takeWhile_append (fun c hc => (h c hc).1) cs

theorem EndsWord.takeWhile_isDecimalDigit (cs : List Char) :
    (cs ++ rest).takeWhile isDecimalDigit = cs.takeWhile isDecimalDigit := by
  refine takeWhile_append (fun c hc => Bool.eq_false_iff.2 fun hdigit => ?_) cs
  have word := Text.isWordChar_of_isDecimalDigit hdigit
  simp [(h c hc).1] at word

theorem EndsWord.atWordEnd_append (cs : List Char) : atWordEnd (cs ++ rest) = atWordEnd cs := by
  cases cs with
  | cons c cs => rfl
  | nil =>
    cases rest with
    | nil => rfl
    | cons c rest => simp [atWordEnd, (h c rfl).1]

theorem EndsWord.fractionOf_append (cs : List Char) : fractionOf (cs ++ rest) = fractionOf cs := by
  cases cs with
  | nil =>
    cases rest with
    | nil => rfl
    | cons c rest => simp [fractionOf, (h c rfl).2]
  | cons c cs =>
    by_cases hc : c = '.'
    · subst hc
      have := h.atWordEnd_append
      have := length_takeWhile_le isDecimalDigit cs
      simp only [fractionOf, List.cons_append, h.takeWhile_isDecimalDigit,
        List.drop_append_of_le_length this, h.atWordEnd_append]
    · simp [fractionOf, hc]

theorem EndsWord.unsigned?_append (cs : List Char) : unsigned? (cs ++ rest) = unsigned? cs := by
  have := length_takeWhile_le isDecimalDigit cs
  simp only [unsigned?, h.takeWhile_isDecimalDigit, List.drop_append_of_le_length this,
    h.atWordEnd_append, h.fractionOf_append]

theorem EndsWord.wordLexeme?_append {cs : List Char} (hne : cs ≠ []) :
    wordLexeme? (cs ++ rest) = wordLexeme? cs := by
  obtain ⟨c, cs, rfl⟩ := List.exists_cons_of_ne_nil hne
  have number : number? (c :: cs ++ rest) = number? (c :: cs) := by
    by_cases hc : c = '-'
    · subst hc
      rw [List.cons_append, number?_minus, number?_minus, h.unsigned?_append]
    · have := h.unsigned?_append (c :: cs)
      rwa [List.cons_append, number?_of_ne_minus hc, number?_of_ne_minus hc]
  simp only [wordLexeme?, number, h.takeWhile_isWordChar]

end

/-! ## Lexemes before a text that starts apart -/

section
variable {rest : List Char} (h : StartsApart rest)
include h

theorem StartsApart.operatorLexeme?_append {cs : List Char} {l : Lexeme}
    (hl : operatorLexeme? cs = some l) : operatorLexeme? (cs ++ rest) = some l := by
  match cs with
  | [] => simp [operatorLexeme?] at hl
  | [c] =>
    cases rest with
    | nil => exact hl
    | cons d rest =>
      rw [operatorLexeme?_singleton] at hl
      rw [List.singleton_append, operatorLexeme?_cons_cons, pairKind?_eq_none (h d rfl), hl]
      rfl
  | c :: d :: cs =>
    rw [operatorLexeme?_cons_cons] at hl
    rw [List.cons_append, List.cons_append, operatorLexeme?_cons_cons, hl]

theorem StartsApart.lexeme?_append {cs : List Char} {l : Lexeme} (hl : lexeme? cs = some l) :
    lexeme? (cs ++ rest) = some l := by
  cases cs with
  | nil => cases hl
  | cons c cs =>
    rw [List.cons_append]
    by_cases hc : c = '\'' ∨ c = '"'
    · rw [lexeme?_quote hc] at hl ⊢
      obtain ⟨body, after, rfl, hbody, hlexeme⟩ := quotedLexeme?_eq_some_iff.1 hl
      exact quotedLexeme?_eq_some_iff.2 ⟨body, after ++ rest, by simp, hbody, hlexeme⟩
    · rw [lexeme?_of_ne_quote hc] at hl ⊢
      rcases Option.or_eq_some_iff.1 hl with hop | ⟨-, hword⟩
      · have := h.operatorLexeme?_append hop
        rw [List.cons_append] at this
        rw [this, Option.some_or]
      · have := h.endsWord.wordLexeme?_append (List.cons_ne_nil c cs)
        rw [List.cons_append] at this
        rw [operatorLexeme?_eq_none (head_of_wordLexeme? hword), this, Option.none_or, hword]

end

/-! ## The length of a lexeme -/

theorem operatorLexeme?_length {cs : List Char} {l : Lexeme} (hl : operatorLexeme? cs = some l) :
    0 < l.length ∧ l.length ≤ cs.length := by
  unfold operatorLexeme? at hl
  split at hl <;> cases hl <;> simp

theorem wordLexeme?_length {cs : List Char} {l : Lexeme} (hl : wordLexeme? cs = some l) :
    0 < l.length ∧ l.length ≤ cs.length := by
  unfold wordLexeme? at hl
  split at hl
  · rename_i number hnumber
    cases hl
    obtain ⟨hne, hprefix⟩ := isPrefix_of_number? hnumber
    exact ⟨List.length_pos_iff.2 hne, hprefix.length_le⟩
  · dsimp only at hl
    split at hl
    · cases hl
    · rename_i hword
      cases hl
      exact ⟨by simpa [List.length_pos_iff] using hword, length_takeWhile_le _ _⟩

theorem lexeme?_length {cs : List Char} {l : Lexeme} (hl : lexeme? cs = some l) :
    0 < l.length ∧ l.length ≤ cs.length := by
  cases cs with
  | nil => cases hl
  | cons c cs =>
    by_cases hc : c = '\'' ∨ c = '"'
    · rw [lexeme?_quote hc] at hl
      obtain ⟨body, after, rfl, -, rfl⟩ := quotedLexeme?_eq_some_iff.1 hl
      simp
    · rw [lexeme?_of_ne_quote hc] at hl
      rcases Option.or_eq_some_iff.1 hl with hop | ⟨-, hword⟩
      · exact operatorLexeme?_length hop
      · exact wordLexeme?_length hword

/-! ## Scans -/

theorem scan_succ (inside offset : Nat) (c : Char) (cs : List Char) :
    scan (inside + 1) offset (c :: cs) = scan inside (offset + c.utf8Size) cs := by
  rw [scan]

theorem scan_whiteSpace {c : Char} (h : isWhiteSpace c) (offset : Nat) (cs : List Char) :
    scan 0 offset (c :: cs) = scan 0 (offset + c.utf8Size) cs := by
  rw [scan, if_pos h]

theorem scan_lexeme {c : Char} {cs : List Char} {l : Lexeme} (h : isWhiteSpace c = false)
    (hl : lexeme? (c :: cs) = some l) (offset : Nat) :
    scan 0 offset (c :: cs) =
      (⟨l.kind, offset⟩ :: ·) <$> scan (l.length - 1) (offset + c.utf8Size) cs := by
  simp [scan, h, hl]

theorem scan_error {c : Char} {cs : List Char} (h : isWhiteSpace c = false)
    (hl : lexeme? (c :: cs) = none) (offset : Nat) :
    scan 0 offset (c :: cs) =
      .error ⟨offset, String.ofList ((c :: cs).takeWhile fun c => !isWhiteSpace c)⟩ := by
  simp [scan, h, hl]

/-- A result for a text that starts `d` bytes further on. -/
def shift (d : Nat) : Except LexError (List Token) → Except LexError (List Token)
  | .ok ts => .ok (ts.map fun t => ⟨t.kind, d + t.offset⟩)
  | .error e => .error ⟨d + e.offset, e.fragment⟩

/-- Where a text starts changes offsets and nothing else. -/
theorem scan_add (d inside offset : Nat) (cs : List Char) :
    scan inside (d + offset) cs = shift d (scan inside offset cs) := by
  induction cs generalizing inside offset with
  | nil => cases inside <;> rfl
  | cons c cs ih =>
    cases inside with
    | succ inside => rw [scan_succ, scan_succ, Nat.add_assoc, ih]
    | zero =>
      cases hc : isWhiteSpace c with
      | true => rw [scan_whiteSpace hc, scan_whiteSpace hc, Nat.add_assoc, ih]
      | false =>
        cases hl : lexeme? (c :: cs) with
        | none =>
          rw [scan_error hc hl, scan_error hc hl]
          rfl
        | some l =>
          rw [scan_lexeme hc hl, scan_lexeme hc hl, Nat.add_assoc, ih]
          cases scan (l.length - 1) (offset + c.utf8Size) cs <;> rfl

def byteSize : List Char → Nat
  | [] => 0
  | c :: cs => c.utf8Size + byteSize cs

/-- **Append.** A text that splits into tokens splits in the same way before one that starts
apart. -/
theorem scan_append {inside offset : Nat} {cs rest : List Char} {ts : List Token}
    (hinside : inside ≤ cs.length) (h : scan inside offset cs = .ok ts) (hrest : StartsApart rest) :
    scan inside offset (cs ++ rest) = (ts ++ ·) <$> scan 0 (offset + byteSize cs) rest := by
  induction cs generalizing inside offset ts with
  | nil =>
    obtain rfl : inside = 0 := Nat.le_zero.1 hinside
    cases h
    simp [byteSize]
  | cons c cs ih =>
    have size : offset + byteSize (c :: cs) = offset + c.utf8Size + byteSize cs := by
      simp [byteSize, Nat.add_assoc]
    rw [size]
    cases inside with
    | succ inside =>
      -- The character belongs to a lexeme that ends within `cs`.
      rw [scan_succ] at h
      rw [List.cons_append, scan_succ]
      exact ih (Nat.le_of_succ_le_succ hinside) h
    | zero =>
      cases hc : isWhiteSpace c with
      | true =>
        rw [scan_whiteSpace hc] at h
        rw [List.cons_append, scan_whiteSpace hc]
        exact ih (Nat.zero_le _) h
      | false =>
        cases hl : lexeme? (c :: cs) with
        | none =>
          rw [scan_error hc hl] at h
          cases h
        | some l =>
          have hlength := (lexeme?_length hl).2
          rw [scan_lexeme hc hl] at h
          cases hafter : scan (l.length - 1) (offset + c.utf8Size) cs with
          | error e =>
            rw [hafter] at h
            cases h
          | ok us =>
            rw [hafter] at h
            cases h
            have happ := hrest.lexeme?_append hl
            rw [List.cons_append] at happ ⊢
            rw [scan_lexeme hc happ, ih (by simp at hlength; omega) hafter]
            cases scan 0 (offset + c.utf8Size + byteSize cs) rest <;> rfl

end Token

end RecordRules
