import RecordRules.Proofs.CompiledLiterals

/-!
# The fields of compiled rules

A lexeme that stands alone is taken whole, as a token of the same kind. So the field of a compiled
condition is a bare word wherever it is written.
-/

namespace RecordRules

namespace Token

open Text (isWordChar isDecimalDigit isWhiteSpace)

/-! ## Lexemes that stand alone -/

theorem IsUnsigned.unsigned?_eq {cs : List Char} (h : IsUnsigned cs) : unsigned? cs = some cs := by
  cases h with
  | whole hne digits =>
    have taken := unsigned?_digits hne digits (rfl : atWordEnd [] = true) rfl
    rwa [List.append_nil] at taken
  | pointed hne digits hne' digits' =>
    apply unsigned?_digits hne digits
    · simp [atWordEnd, isWordChar_point]
    · exact fractionOf_digits hne' digits'

/-- Digits are no keyword. -/
theorem IsUnsigned.wordKind_eq {cs : List Char} (h : IsUnsigned cs) :
    wordKind cs = .word (String.ofList cs) := by
  unfold wordKind
  dsimp only
  cases hk : Combinator.ofKeyword? (String.ofList cs) with
  | none => rfl
  | some k =>
    have found := List.find?_some hk
    have same : k.keyword = String.ofList cs := beq_iff_eq.1 found
    have lexeme : IsLexeme k.keyword.toList (.word (String.ofList cs)) := by
      rw [same, String.toList_ofList]
      exact .unsigned h
    exact absurd lexeme.isKeyword nofun

theorem wordLexeme?_of_isWordChar {cs : List Char} (hne : cs ≠ [])
    (chars : ∀ c ∈ cs, isWordChar c) : wordLexeme? cs = some ⟨wordKind cs, cs.length⟩ := by
  obtain ⟨c, rest, rfl⟩ := List.exists_cons_of_ne_nil hne
  rw [wordLexeme?_of_ne_minus (ne_minus_of_isWordChar (chars c List.mem_cons_self))]
  cases hn : unsigned? (c :: rest) with
  | some n =>
    -- The number goes up to the end of the word, so it is all of it.
    have length := length_word_le_of_unsigned? hn chars List.prefix_rfl
    have whole : n = c :: rest := (isPrefix_of_unsigned? hn).2.eq_of_length_le length
    subst whole
    rw [(isUnsigned_of_unsigned? hn).wordKind_eq]
  | none =>
    have whole : (c :: rest).takeWhile isWordChar = c :: rest := List.takeWhile_eq_self_iff.2 chars
    simp [whole]

theorem IsLexeme.lexeme?_eq {cs : List Char} {kind : Kind} (h : IsLexeme cs kind) :
    lexeme? cs = some ⟨kind, cs.length⟩ := by
  cases h with
  | @quoted q body quote inside =>
    rw [List.cons_append, lexeme?_quote quote]
    exact quotedLexeme?_eq_some_iff.2 ⟨body, [], rfl, inside, by simp⟩
  | pair listed =>
    unfold pairKind? at listed
    split at listed <;> cases listed <;> rfl
  | sign listed =>
    unfold signKind? at listed
    split at listed <;> cases listed <;> rfl
  | unsigned number =>
    obtain ⟨c, rest, rfl, hc⟩ := number.exists_cons
    have word := Text.isWordChar_of_isDecimalDigit hc
    rw [lexeme?_eq_wordLexeme? (.inl word), wordLexeme?_of_ne_minus (ne_minus_of_isWordChar word),
      number.unsigned?_eq]
  | negative number =>
    rw [lexeme?_eq_wordLexeme? (.inr rfl), wordLexeme?_minus, number.unsigned?_eq]
    rfl
  | word hne chars =>
    obtain ⟨c, rest, rfl⟩ := List.exists_cons_of_ne_nil hne
    rw [lexeme?_eq_wordLexeme? (.inl (chars c List.mem_cons_self)),
      wordLexeme?_of_isWordChar hne chars]

/-- No lexeme starts with white space. -/
theorem IsLexeme.exists_start {cs : List Char} {kind : Kind} (h : IsLexeme cs kind) :
    ∃ c rest, cs = c :: rest ∧ isWhiteSpace c = false := by
  have sign : ['\'', '"', '=', '<', '>', '!', '&', '|', '(', ')'].all (!isWhiteSpace ·) := by decide
  simp only [List.all_cons, List.all_nil, Bool.and_eq_true, Bool.not_eq_true'] at sign
  cases h with
  | quoted quote inside => rcases quote with rfl | rfl <;> simp [sign]
  | pair listed =>
    unfold pairKind? at listed
    split at listed <;> simp_all
  | sign listed =>
    unfold signKind? at listed
    split at listed <;> simp_all
  | unsigned number =>
    obtain ⟨c, rest, rfl, hc⟩ := number.exists_cons
    have word := Text.isWordChar_of_isDecimalDigit hc
    exact ⟨c, rest, rfl, isWhiteSpace_eq_false_of_start (.inl word)⟩
  | negative number => exact ⟨'-', _, rfl, isWhiteSpace_eq_false_of_start (.inr rfl)⟩
  | word hne chars =>
    obtain ⟨c, rest, rfl⟩ := List.exists_cons_of_ne_nil hne
    exact ⟨c, rest, rfl, isWhiteSpace_eq_false_of_start (.inl (chars c List.mem_cons_self))⟩

/-! ## Words -/

theorem IsLexeme.exists_word_start {cs : List Char} {text : String} (h : IsLexeme cs (.word text)) :
    ∃ c rest, cs = c :: rest ∧ (isWordChar c ∨ c = '-') := by
  generalize hkind : Kind.word text = kind at h
  cases h with
  | quoted quote inside => cases hkind
  | pair listed =>
    unfold pairKind? at listed
    split at listed <;> cases listed <;> cases hkind
  | sign listed =>
    unfold signKind? at listed
    split at listed <;> cases listed <;> cases hkind
  | unsigned number =>
    obtain ⟨c, rest, rfl, hc⟩ := number.exists_cons
    exact ⟨c, rest, rfl, .inl (Text.isWordChar_of_isDecimalDigit hc)⟩
  | negative number => exact ⟨'-', _, rfl, .inr rfl⟩
  | word hne chars =>
    obtain ⟨c, rest, rfl⟩ := List.exists_cons_of_ne_nil hne
    exact ⟨c, rest, rfl, .inl (chars c List.mem_cons_self)⟩

theorem IsLexeme.isWord {cs : List Char} {text : String} (h : IsLexeme cs (.word text)) :
    IsWord text := by
  have shown : cs = text.toList := h.shows.resolve_right fun other => nomatch other.1
  obtain ⟨c, rest, hcs, start⟩ := h.exists_word_start
  have lexeme := h.lexeme?_eq
  rw [hcs] at lexeme
  unfold IsWord tokenize
  rw [← shown, hcs]
  exact scan_of_lexeme? (isWhiteSpace_eq_false_of_start start) lexeme

end Token

theorem isWord_of_compile {limits : Limits} {text : String} {t : Tree}
    (h : compile limits text = .ok t) : ∀ c ∈ t.conditions, Token.IsWord c.field := by
  intro c hc
  obtain ⟨ts, hts, derived, -⟩ := exists_tokens_of_compile h
  obtain ⟨kind, text, leaf, -⟩ := derived.exists_leaf hc
  have mem : .word c.field ∈ ts.map (·.kind) := leaf.subset List.mem_cons_self
  obtain ⟨lexeme, hlexeme⟩ := Token.exists_isLexeme_of_tokenize hts mem
  exact hlexeme.isWord

end RecordRules
