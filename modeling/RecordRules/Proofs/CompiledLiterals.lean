import RecordRules.Proofs.Overflow
import RecordRules.Proofs.Rendering
import RecordRules.Proofs.Splitting

/-!
# The literals of compiled rules

Each literal of a compiled rule is read from a lexeme, and a lexeme holds no more than one kind of
quote. So no literal mixes them, and a compiled rule is writable as soon as its floats are finite.
-/

namespace RecordRules

namespace Literal

/-! ## Texts with one kind of quote -/

theorem mixesQuotes_string {q : Char} (quote : q = '\'' ∨ q = '"') {cs : List Char} (h : q ∉ cs) :
    (string (String.ofList cs)).mixesQuotes = false := by
  rcases quote with rfl | rfl <;> simp [mixesQuotes, h]

theorem unquotedBy?_of_not_mem {q : Char} {cs : List Char} (h : q ∉ cs) :
    unquotedBy? q cs = none := by
  cases cs with
  | nil => rfl
  | cons c cs =>
    apply unquotedBy?_eq_none
    rintro rfl
    exact h List.mem_cons_self

theorem mixesQuotes_ofWhole (negative : Bool) (digits : List Char) :
    (ofWhole negative digits).mixesQuotes = false := by
  unfold ofWhole
  generalize Nat.ofDigitChars 10 digits 0 = n
  dsimp only
  generalize (if negative then -(n : Int) else n) = signed
  split <;> rfl

theorem mixesQuotes_ofChars_bare {cs : List Char} (single : '\'' ∉ cs) (double : '"' ∉ cs) :
    (ofChars cs).mixesQuotes = false := by
  have bare : unquoted? cs = none := by
    rw [unquoted?, unquotedBy?_of_not_mem single, unquotedBy?_of_not_mem double]
    rfl
  unfold ofChars
  rw [bare]
  dsimp only
  split
  · exact mixesQuotes_ofWhole _ _
  · split
    · rfl
    · exact mixesQuotes_string (.inl rfl) single

theorem ofChars_quoted {q : Char} (quote : q = '\'' ∨ q = '"') (body : List Char) :
    ofChars (q :: body ++ [q]) = string (String.ofList body) := by
  have inner : unquoted? (q :: (body ++ [q])) = some body := by
    rcases quote with rfl | rfl
    · rw [unquoted?, unquotedBy?_quoted, Option.some_or]
    · rw [unquoted?, unquotedBy?_eq_none (by decide), unquotedBy?_quoted, Option.none_or]
  rw [List.cons_append, ofChars, inner]

end Literal

/-! ## Lexemes -/

namespace Token

open RecordRules.Parser (IsLiteral)
open Text (isWordChar isDecimalDigit)

theorem IsUnsigned.word_or_point {cs : List Char} (h : IsUnsigned cs) :
    ∀ c ∈ cs, isWordChar c ∨ c = '.' := by
  intro c hc
  cases h with
  | whole hne digits => exact .inl (Text.isWordChar_of_isDecimalDigit (digits c hc))
  | pointed hne digits hne' digits' =>
    rcases List.mem_append.1 hc with hc | hc
    · exact .inl (Text.isWordChar_of_isDecimalDigit (digits c hc))
    · rcases List.mem_cons.1 hc with rfl | hc
      · exact .inr rfl
      · exact .inl (Text.isWordChar_of_isDecimalDigit (digits' c hc))

theorem quotes_not_mem {cs : List Char} (h : ∀ c ∈ cs, isWordChar c ∨ c = '.' ∨ c = '-') :
    '\'' ∉ cs ∧ '"' ∉ cs := by
  constructor
  · intro hq
    exact absurd (h _ hq) (by decide)
  · intro hq
    exact absurd (h _ hq) (by decide)

/-- A lexeme that can stand for a literal is a string in quotes, or holds no quote. -/
theorem IsLexeme.literal_cases {cs : List Char} {kind : Kind} {text : String}
    (h : IsLexeme cs kind) (literal : IsLiteral kind text) :
    text = String.ofList cs ∧
      ((∃ q body, (q = '\'' ∨ q = '"') ∧ q ∉ body ∧ cs = q :: body ++ [q]) ∨
        '\'' ∉ cs ∧ '"' ∉ cs) := by
  cases h with
  | quoted quote inside =>
    cases literal
    exact ⟨rfl, .inl ⟨_, _, quote, inside, rfl⟩⟩
  | pair listed =>
    unfold pairKind? at listed
    split at listed <;> cases listed <;> cases literal
  | sign listed =>
    unfold signKind? at listed
    split at listed <;> cases listed <;> cases literal
  | unsigned number =>
    cases literal
    refine ⟨rfl, .inr (quotes_not_mem fun c hc => ?_)⟩
    rcases number.word_or_point c hc with hc | hc
    · exact .inl hc
    · exact .inr (.inl hc)
  | negative number =>
    cases literal
    refine ⟨rfl, .inr (quotes_not_mem fun c hc => ?_)⟩
    rcases List.mem_cons.1 hc with rfl | hc
    · exact .inr (.inr rfl)
    · rcases number.word_or_point c hc with hc | hc
      · exact .inl hc
      · exact .inr (.inl hc)
  | word hne chars =>
    refine ⟨?_, .inr (quotes_not_mem fun c hc => .inl (chars c hc))⟩
    rw [← wordKind_text]
    generalize wordKind cs = kind at literal
    cases literal <;> rfl

theorem IsLexeme.mixesQuotes_ofText {cs : List Char} {kind : Kind} {text : String}
    (h : IsLexeme cs kind) (literal : IsLiteral kind text) :
    (Literal.ofText text).mixesQuotes = false := by
  obtain ⟨rfl, ⟨q, body, quote, inside, rfl⟩ | ⟨single, double⟩⟩ := h.literal_cases literal
  · rw [Literal.ofText, String.toList_ofList, Literal.ofChars_quoted quote]
    exact Literal.mixesQuotes_string quote inside
  · rw [Literal.ofText, String.toList_ofList]
    exact Literal.mixesQuotes_ofChars_bare single double

theorem Splits.exists_isLexeme {offset : Nat} {cs : List Char} {ts : List Token}
    {pieces : List (List Char × List Char)} {last : List Char}
    (h : Splits Taken offset cs ts pieces last) {t : Token} (ht : t ∈ ts) :
    ∃ lexeme, IsLexeme lexeme t.kind := by
  induction h with
  | last white => cases ht
  | piece white hne holds after ih =>
    rcases List.mem_cons.1 ht with rfl | ht
    · exact ⟨_, holds.isLexeme⟩
    · exact ih ht

/-- Each kind of token that a text has is that of a lexeme. -/
theorem exists_isLexeme_of_tokenize {text : String} {ts : List Token} (h : tokenize text = .ok ts)
    {kind : Kind} (hkind : kind ∈ ts.map (·.kind)) : ∃ lexeme, IsLexeme lexeme kind := by
  obtain ⟨pieces, last, hsplits⟩ := exists_splits h
  obtain ⟨token, htoken, rfl⟩ := List.mem_map.1 hkind
  exact hsplits.exists_isLexeme htoken

end Token

/-! ## Trees -/

theorem Parser.Derives.exists_literal {part : Part} {ks : List Token.Kind} {t : Tree}
    (h : Derives part ks t) {c : Condition} (hc : c ∈ t.conditions) :
    ∃ kind ∈ ks, ∃ text, IsLiteral kind text ∧ c.literal = .ofText text := by
  obtain ⟨kind, text, leaf, hliteral, hvalue⟩ := h.exists_leaf hc
  exact ⟨kind, leaf.subset (by simp), text, hliteral, hvalue⟩

theorem compile_eq_ok_iff {limits : Limits} {text : String} {t : Tree} :
    compile limits text = .ok t ↔ text.utf8ByteSize ≤ limits.maxRuleLength.toNat ∧
      ∃ ts, Token.tokenize text = .ok ts ∧ Parser.Accepts limits.maxNestingDepth.toNat ts t := by
  by_cases hlength : text.utf8ByteSize ≤ limits.maxRuleLength.toNat
  · cases hts : Token.tokenize text with
    | error e =>
      have failed : compile limits text = .error (.lex e) := by
        rw [compile, tokensWithin, if_neg (Nat.not_lt.2 hlength), hts]
        rfl
      simp [failed]
    | ok ts => simp [compile_of_tokenize hlength hts, hlength, parse_eq_ok_iff_accepts]
  · obtain ⟨e, he⟩ := compile_of_tooLong (Nat.not_le.1 hlength)
    simp [he, hlength]

theorem exists_tokens_of_compile {limits : Limits} {text : String} {t : Tree}
    (h : compile limits text = .ok t) :
    ∃ ts, Token.tokenize text = .ok ts ∧ Parser.Accepts limits.maxNestingDepth.toNat ts t :=
  (compile_eq_ok_iff.1 h).2

theorem mixesQuotes_of_compile {limits : Limits} {text : String} {t : Tree}
    (h : compile limits text = .ok t) : ∀ c ∈ t.conditions, c.literal.mixesQuotes = false := by
  intro c hc
  obtain ⟨ts, hts, derived, -⟩ := exists_tokens_of_compile h
  obtain ⟨kind, hkind, literalText, hliteral, hvalue⟩ := derived.exists_literal hc
  obtain ⟨lexeme, hlexeme⟩ := Token.exists_isLexeme_of_tokenize hts hkind
  rw [hvalue]
  exact hlexeme.mixesQuotes_ofText hliteral

/-- A compiled tree is equal to itself as a value, also with floats that are not finite. -/
theorem sameTree_self_of_compile {limits : Limits} {text : String} {t : Tree}
    (h : compile limits text = .ok t) : t.sameTree t := by
  obtain ⟨ts, -, derived, -⟩ := exists_tokens_of_compile h
  refine Tree.sameTree_self_of_literals fun c hc => ?_
  obtain ⟨-, -, literalText, -, hvalue⟩ := derived.exists_literal hc
  rw [hvalue]
  exact Literal.sameValue_self_of_ne_nan (Literal.ofChars_ne_nan literalText.toList)

end RecordRules
