import RecordRules.Proofs.CompiledFields
import RecordRules.Proofs.SpacedTexts

/-!
# Where a text stops to split into tokens

At a character that is no white space a lexeme starts, or it is one of a few: a quote that is not
closed, a sign without a number, half of a double sign, or a character of no lexeme. The first one
that the lexer gets to is where its error is, and the text before it splits into tokens by itself.
-/

namespace RecordRules

namespace Token

open Text (isWordChar isDecimalDigit isWhiteSpace)

/-! ## Characters at which no lexeme starts -/

/-- A character with the text after it, of which no start is taken as a lexeme. -/
inductive StartsNoLexeme : Char → List Char → Prop
  | openQuote {q : Char} {rest : List Char} (quote : q = '\'' ∨ q = '"') (unclosed : q ∉ rest) :
      StartsNoLexeme q rest
  | bareMinus {rest : List Char} (noDigits : rest.takeWhile isDecimalDigit = []) :
      StartsNoLexeme '-' rest
  | minusWord {rest after : List Char} {c : Char}
      (behindDigits : rest.dropWhile isDecimalDigit = c :: after) (goesOn : isWordChar c) :
      StartsNoLexeme '-' rest
  | halfSign {c : Char} {rest : List Char} (sign : c = '&' ∨ c = '|')
      (single : rest.head? ≠ some c) : StartsNoLexeme c rest
  | foreign {c : Char} {rest : List Char} (word : isWordChar c = false)
      (white : isWhiteSpace c = false)
      (sign : c ∉ ['(', ')', '=', '<', '>', '!', '\'', '"', '-', '&', '|']) : StartsNoLexeme c rest

theorem StartsNoLexeme.isWhiteSpace_eq_false {c : Char} {rest : List Char}
    (h : StartsNoLexeme c rest) : isWhiteSpace c = false := by
  have signs : ['\'', '"', '-', '&', '|'].all (!isWhiteSpace ·) := by decide
  simp only [List.all_cons, List.all_nil, Bool.and_eq_true, Bool.not_eq_true'] at signs
  rcases h with (⟨quote, -⟩ | _ | _ | ⟨sign, -⟩ | ⟨-, white, -⟩)
  · rcases quote with rfl | rfl <;> simp [signs]
  · simp [signs]
  · simp [signs]
  · rcases sign with rfl | rfl <;> simp [signs]
  · exact white

theorem quotedLexeme?_eq_none_iff {q : Char} {rest : List Char} :
    quotedLexeme? q rest = none ↔ q ∉ rest := by
  rw [Option.eq_none_iff_forall_ne_some]
  constructor
  · intro none mem
    obtain ⟨body, after, rfl, inside⟩ := List.eq_append_cons_of_mem mem
    exact none _ (quotedLexeme?_eq_some_iff.2 ⟨body, after, rfl, inside, rfl⟩)
  · intro unclosed l hl
    obtain ⟨body, after, rfl, -, -⟩ := quotedLexeme?_eq_some_iff.1 hl
    simp at unclosed

theorem unsigned?_eq_none_iff {cs : List Char} : unsigned? cs = none ↔
    cs.takeWhile isDecimalDigit = [] ∨
      ∃ c after, cs.dropWhile isDecimalDigit = c :: after ∧ isWordChar c := by
  simp only [unsigned?, drop_length_takeWhile]
  generalize cs.takeWhile isDecimalDigit = digits
  rcases cs.dropWhile isDecimalDigit with _ | ⟨c, after⟩ <;>
    simp [atWordEnd, or_iff_not_imp_left]

theorem signKind?_eq_none_iff {c : Char} :
    signKind? c = none ↔ c ∉ ['(', ')', '=', '<', '>', '!'] := by
  unfold signKind?
  split <;> simp_all

theorem pairKind?_eq_none_of_not_mem {c : Char} (h : c ∉ ['=', '<', '>', '!', '&', '|'])
    (d : Char) : pairKind? c d = none := by
  unfold pairKind?
  split <;> simp_all

theorem pairKind?_double {c : Char} (h : c = '&' ∨ c = '|') (d : Char) :
    pairKind? c d = none ↔ d ≠ c := by
  unfold pairKind?
  rcases h with rfl | rfl <;> split <;> simp_all

theorem operatorLexeme?_eq_none_iff {c : Char} {rest : List Char} :
    operatorLexeme? (c :: rest) = none ↔
      signKind? c = none ∧ ∀ d ∈ rest.head?, pairKind? c d = none := by
  rcases rest with _ | ⟨d, rest⟩
  · simp [operatorLexeme?_singleton]
  · simp [operatorLexeme?_cons_cons, and_comm]

theorem wordLexeme?_eq_none {c : Char} (word : isWordChar c = false) (minus : c ≠ '-')
    (rest : List Char) : wordLexeme? (c :: rest) = none := by
  rw [Option.eq_none_iff_forall_ne_some]
  intro l hl
  rcases head_of_wordLexeme? hl with hc | hc
  · simp [word] at hc
  · exact minus hc

theorem wordLexeme?_ne_none {c : Char} (word : isWordChar c) (rest : List Char) :
    wordLexeme? (c :: rest) ≠ none := by
  rw [wordLexeme?_of_ne_minus (ne_minus_of_isWordChar word)]
  split <;> simp [word]

theorem lexeme?_minus_eq_none_iff {rest : List Char} : lexeme? ('-' :: rest) = none ↔
    rest.takeWhile isDecimalDigit = [] ∨
      ∃ c after, rest.dropWhile isDecimalDigit = c :: after ∧ isWordChar c := by
  rw [lexeme?_eq_wordLexeme? (.inr rfl), wordLexeme?_minus, Option.map_eq_none_iff,
    unsigned?_eq_none_iff]

theorem lexeme?_sign_eq_none_iff {c : Char} {rest : List Char} (quote : ¬ (c = '\'' ∨ c = '"'))
    (word : isWordChar c = false) (minus : c ≠ '-') : lexeme? (c :: rest) = none ↔
      c ∉ ['(', ')', '=', '<', '>', '!'] ∧ ∀ d ∈ rest.head?, pairKind? c d = none := by
  rw [lexeme?_of_ne_quote quote, wordLexeme?_eq_none word minus, Option.or_none,
    operatorLexeme?_eq_none_iff, signKind?_eq_none_iff]

theorem startsNoLexeme_of_lexeme? {c : Char} {rest : List Char} (white : isWhiteSpace c = false)
    (none : lexeme? (c :: rest) = none) : StartsNoLexeme c rest := by
  by_cases quote : c = '\'' ∨ c = '"'
  · rw [lexeme?_quote quote, quotedLexeme?_eq_none_iff] at none
    exact .openQuote quote none
  by_cases word : isWordChar c
  · rw [lexeme?_eq_wordLexeme? (.inl word)] at none
    exact absurd none (wordLexeme?_ne_none word rest)
  rw [Bool.not_eq_true] at word
  by_cases minus : c = '-'
  · subst minus
    rcases lexeme?_minus_eq_none_iff.1 none with noDigits | ⟨d, after, behindDigits, goesOn⟩
    · exact .bareMinus noDigits
    · exact .minusWord behindDigits goesOn
  obtain ⟨sign, pair⟩ := (lexeme?_sign_eq_none_iff quote word minus).1 none
  by_cases double : c = '&' ∨ c = '|'
  · apply StartsNoLexeme.halfSign double
    intro head
    exact (pairKind?_double double c).1 (pair c head) rfl
  · apply StartsNoLexeme.foreign word white
    simp_all

theorem StartsNoLexeme.lexeme?_eq_none {c : Char} {rest : List Char} (h : StartsNoLexeme c rest) :
    lexeme? (c :: rest) = none := by
  cases h with
  | openQuote quote unclosed =>
    rw [lexeme?_quote quote, quotedLexeme?_eq_none_iff]
    exact unclosed
  | bareMinus noDigits => exact lexeme?_minus_eq_none_iff.2 (.inl noDigits)
  | minusWord behindDigits goesOn =>
    exact lexeme?_minus_eq_none_iff.2 (.inr ⟨_, _, behindDigits, goesOn⟩)
  | halfSign double single =>
    have alone : ¬ (c = '\'' ∨ c = '"') ∧ isWordChar c = false ∧ c ≠ '-' ∧
        c ∉ ['(', ')', '=', '<', '>', '!'] := by
      rcases double with rfl | rfl <;> decide
    obtain ⟨quote, word, minus, sign⟩ := alone
    refine (lexeme?_sign_eq_none_iff quote word minus).2 ⟨sign, fun d hd => ?_⟩
    apply (pairKind?_double double d).2
    rintro rfl
    exact single hd
  | foreign word white sign =>
    refine (lexeme?_sign_eq_none_iff (by simp_all) word (by simp_all)).2 ⟨by simp_all, ?_⟩
    intro d _
    exact pairKind?_eq_none_of_not_mem (by simp_all) d

theorem lexeme?_eq_none_iff {c : Char} {rest : List Char} (white : isWhiteSpace c = false) :
    lexeme? (c :: rest) = none ↔ StartsNoLexeme c rest :=
  ⟨startsNoLexeme_of_lexeme? white, StartsNoLexeme.lexeme?_eq_none⟩

/-! ## A lexeme does not hang on what comes later -/

theorem operatorLexeme?_congr {m x y : List Char} (hne : m ≠ []) (same : y.head? = x.head?) :
    operatorLexeme? (m ++ y) = operatorLexeme? (m ++ x) := by
  rcases m with _ | ⟨c, _ | ⟨d, m⟩⟩
  · exact absurd rfl hne
  · rcases x with _ | ⟨d, x⟩ <;> rcases y with _ | ⟨e, y⟩ <;>
      simp_all [operatorLexeme?_cons_cons]
  · simp [operatorLexeme?_cons_cons]

theorem atWordEnd_of_fractionOf {f x : List Char} (h : fractionOf (f ++ x) = f) (hne : f ≠ []) :
    atWordEnd x := by
  obtain ⟨c, f, rfl⟩ := List.exists_cons_of_ne_nil hne
  unfold fractionOf at h
  split at h
  · rename_i rest text
    obtain ⟨rfl, rfl⟩ := List.cons.inj text
    dsimp only at h
    split at h
    · cases h
    · rename_i taken
      obtain ⟨-, hf⟩ := List.cons.inj h
      rw [hf, List.append_eq, List.drop_left] at taken
      have wordEnd : ¬ f = [] ∧ atWordEnd x := by simpa using taken
      exact wordEnd.2
  · cases h

theorem atWordEnd_of_unsigned? {n x : List Char} (h : unsigned? (n ++ x) = some n) :
    atWordEnd x := by
  obtain ⟨-, wordEnd, hn⟩ := unsigned?_eq_some_iff.1 h
  have parts := List.takeWhile_append_dropWhile (p := isDecimalDigit) (l := n ++ x)
  generalize (n ++ x).takeWhile isDecimalDigit = whole at hn parts
  generalize (n ++ x).dropWhile isDecimalDigit = rest at hn parts wordEnd
  have behind : rest = fractionOf rest ++ x := by
    have same : whole ++ rest = whole ++ (fractionOf rest ++ x) := by
      rw [parts, ← List.append_assoc, ← hn]
    exact List.append_cancel_left same
  by_cases fraction : fractionOf rest = []
  · rw [fraction, List.nil_append] at behind
    exact behind ▸ wordEnd
  · exact atWordEnd_of_fractionOf (congrArg fractionOf behind.symm) fraction

theorem eq_of_isPrefix_append {n m x : List Char} (h : n <+: m ++ x)
    (length : n.length = m.length) : n = m := by
  rw [← take_of_isPrefix h, length, List.take_left]

/-- Words and numbers end where no word goes on. -/
theorem atWordEnd_of_wordLexeme? {c : Char} {m x : List Char} {kind : Kind}
    (h : wordLexeme? (c :: (m ++ x)) = some ⟨kind, m.length + 1⟩) : atWordEnd x := by
  by_cases minus : c = '-'
  · subst minus
    rw [wordLexeme?_minus] at h
    obtain ⟨n, hn, hl⟩ := Option.map_eq_some_iff.1 h
    simp only [Lexeme.mk.injEq, Nat.add_right_cancel_iff] at hl
    obtain rfl := eq_of_isPrefix_append (isPrefix_of_unsigned? hn).2 hl.2
    exact atWordEnd_of_unsigned? hn
  · rw [wordLexeme?_of_ne_minus minus] at h
    cases hn : unsigned? (c :: (m ++ x)) with
    | some n =>
      simp only [hn, Option.some.injEq, Lexeme.mk.injEq] at h
      have whole : n = c :: m := eq_of_isPrefix_append (isPrefix_of_unsigned? hn).2 h.2
      subst whole
      exact atWordEnd_of_unsigned? (n := c :: m) hn
    | none =>
      have stop := List.head?_dropWhile_not isWordChar (c :: (m ++ x))
      have parts := List.takeWhile_append_dropWhile (p := isWordChar) (l := c :: (m ++ x))
      simp only [hn] at h
      split at h
      · cases h
      · simp only [Option.some.injEq, Lexeme.mk.injEq] at h
        generalize (c :: (m ++ x)).takeWhile isWordChar = word at h parts
        generalize (c :: (m ++ x)).dropWhile isWordChar = rest at stop parts
        rw [← List.cons_append] at parts
        obtain ⟨-, rfl⟩ := List.append_inj parts h.2
        rcases rest with _ | ⟨d, rest⟩
        · rfl
        · simpa [atWordEnd] using stop

/-- A lexeme is known by the character behind it, which is not a point. -/
theorem lexeme?_congr {m x y : List Char} {kind : Kind}
    (h : lexeme? (m ++ x) = some ⟨kind, m.length⟩) (same : y.head? = x.head?)
    (point : x.head? ≠ some '.') : lexeme? (m ++ y) = some ⟨kind, m.length⟩ := by
  rcases m with _ | ⟨c, m⟩
  · exact absurd (lexeme?_length h).1 (Nat.lt_irrefl 0)
  by_cases quote : c = '\'' ∨ c = '"'
  · rw [List.cons_append, lexeme?_quote quote] at h ⊢
    obtain ⟨body, after, text, inside, hl⟩ := quotedLexeme?_eq_some_iff.1 h
    simp only [Lexeme.mk.injEq, List.length_cons] at hl
    obtain ⟨rfl, length⟩ := hl
    have split : m ++ x = (body ++ [c]) ++ after := by simpa using text
    obtain ⟨rfl, rfl⟩ := List.append_inj split (by simp; omega)
    exact quotedLexeme?_eq_some_iff.2 ⟨body, y, by simp, inside, by simp⟩
  · have operator := operatorLexeme?_congr (List.cons_ne_nil c m) same
    rw [List.cons_append, lexeme?_of_ne_quote quote, ← List.cons_append] at h ⊢
    rw [operator]
    rcases Option.or_eq_some_iff.1 h with hop | ⟨none, hword⟩
    · rw [hop, Option.some_or]
    · have stop (z : List Char) (hz : z.head? = x.head?) : EndsWord z := by
        have wordEnd := atWordEnd_of_wordLexeme? hword
        rcases x with _ | ⟨d, x⟩ <;> rcases z with _ | ⟨e, z⟩ <;> simp_all [EndsWord, atWordEnd]
      rw [none, Option.none_or, (stop y same).wordLexeme?_append (List.cons_ne_nil c m),
        ← (stop x rfl).wordLexeme?_append (List.cons_ne_nil c m), hword]

/-- A lexeme is taken from a text that is cut off later, if not at a point right behind it. -/
theorem lexeme?_cut {m before rest : List Char} {kind : Kind}
    (h : lexeme? (m ++ (before ++ rest)) = some ⟨kind, m.length⟩)
    (point : before.head? ≠ some '.') : lexeme? (m ++ before) = some ⟨kind, m.length⟩ := by
  rcases before with _ | ⟨c, before⟩
  · have taken := isLexeme_of_lexeme? h
    rw [List.take_left] at taken
    rw [List.append_nil, taken.lexeme?_eq]
  · exact lexeme?_congr h rfl point

/-! ## The places that the lexer gets to -/

/-- The lexer gets to `rest` in a text behind `before`: it skips white space and takes lexemes. -/
inductive GetsTo : List Char → List Char → List Char → Prop
  | here (rest : List Char) : GetsTo rest [] rest
  | space {c : Char} {cs before rest : List Char} (white : isWhiteSpace c)
      (later : GetsTo cs before rest) : GetsTo (c :: cs) (c :: before) rest
  | lexeme {m cs before rest : List Char} {kind : Kind}
      (taken : lexeme? (m ++ cs) = some ⟨kind, m.length⟩) (later : GetsTo cs before rest) :
      GetsTo (m ++ cs) (m ++ before) rest

/-- The text from an error to the next white space. -/
def fragmentOf (rest : List Char) : String := String.ofList (rest.takeWhile (!isWhiteSpace ·))

section
variable {cs before rest m : List Char} {c : Char} {kind : Kind}

theorem GetsTo.append_eq (h : GetsTo cs before rest) : before ++ rest = cs := by
  induction h with
  | here rest => rfl
  | space white later ih => rw [List.cons_append, ih]
  | lexeme taken later ih => rw [List.append_assoc, ih]

theorem exists_taken {l : Lexeme} (hl : lexeme? cs = some l) :
    ∃ m after, cs = m ++ after ∧ m ≠ [] ∧ lexeme? (m ++ after) = some ⟨l.kind, m.length⟩ := by
  obtain ⟨pos, inside⟩ := lexeme?_length hl
  have length : (cs.take l.length).length = l.length := List.length_take_of_le inside
  refine ⟨cs.take l.length, cs.drop l.length, ?_, ?_, ?_⟩
  · rw [List.take_append_drop]
  · rw [← List.length_pos_iff, length]
    exact pos
  · rw [List.take_append_drop, length, hl]

theorem scan_taken (taken : lexeme? (m ++ cs) = some ⟨kind, m.length⟩) (offset : Nat) :
    scan 0 offset (m ++ cs) = (⟨kind, offset⟩ :: ·) <$> scan 0 (offset + byteSize m) cs := by
  have isLexeme := isLexeme_of_lexeme? taken
  rw [List.take_left] at isLexeme
  obtain ⟨c, m, rfl, white⟩ := isLexeme.exists_start
  rw [List.cons_append] at taken ⊢
  rw [scan_whole_lexeme white taken, ← List.cons_append, List.take_left, List.drop_left]

/-- The text before a place that the lexer gets to splits into tokens by itself. -/
theorem GetsTo.exists_tokens (h : GetsTo cs before rest) (offset : Nat) :
    ∃ ts, scan 0 offset before = .ok ts := by
  induction h generalizing offset with
  | here rest => exact ⟨[], rfl⟩
  | space white later ih => simpa only [scan_whiteSpace white] using ih _
  | @lexeme m cs before rest kind taken later ih =>
    obtain ⟨ts, hts⟩ := ih (offset + byteSize m)
    rw [← later.append_eq] at taken
    rw [scan_taken (lexeme?_cut taken (head?_ne_point hts)), hts]
    exact ⟨_, rfl⟩

theorem GetsTo.scan_eq_error (h : GetsTo cs before (c :: rest)) (stuck : StartsNoLexeme c rest)
    (offset : Nat) :
    scan 0 offset cs = .error ⟨offset + byteSize before, fragmentOf (c :: rest)⟩ := by
  generalize htext : c :: rest = text at h
  induction h generalizing offset with
  | here text =>
    subst htext
    have white := stuck.isWhiteSpace_eq_false
    exact scan_error white ((lexeme?_eq_none_iff white).2 stuck) offset
  | space blank later ih =>
    rw [scan_whiteSpace blank, ih _ htext, byteSize, Nat.add_assoc]
  | lexeme taken later ih =>
    rw [scan_taken taken, ih _ htext, byteSize_append, Nat.add_assoc]
    rfl

theorem exists_getsTo_of_error {offset : Nat} {e : LexError} (h : scan 0 offset cs = .error e) :
    ∃ before c rest, GetsTo cs before (c :: rest) ∧ StartsNoLexeme c rest ∧
      e = ⟨offset + byteSize before, fragmentOf (c :: rest)⟩ := by
  induction hn : cs.length using Nat.strong_induction_on generalizing cs offset with
  | _ n ih =>
    rcases cs with _ | ⟨c, cs⟩
    · simp [scan] at h
    by_cases white : isWhiteSpace c
    · rw [scan_whiteSpace white] at h
      obtain ⟨before, d, rest, later, stuck, rfl⟩ := ih cs.length (by simp [← hn]) h rfl
      exact ⟨c :: before, d, rest, .space white later, stuck, by simp [byteSize, Nat.add_assoc]⟩
    rw [Bool.not_eq_true] at white
    cases hl : lexeme? (c :: cs) with
    | none =>
      rw [scan_error white hl] at h
      cases h
      exact ⟨[], c, cs, .here _, (lexeme?_eq_none_iff white).1 hl, rfl⟩
    | some l =>
      obtain ⟨m, after, text, hne, taken⟩ := exists_taken hl
      have shorter : after.length < n := by
        rw [← hn, text, List.length_append]
        have := List.length_pos_iff.2 hne
        omega
      rw [text] at h ⊢
      rw [scan_taken taken] at h
      obtain ⟨before, d, rest, later, stuck, rfl⟩ := ih _ shorter (eq_error_of_map h) rfl
      exact ⟨m ++ before, d, rest, .lexeme taken later, stuck,
        by rw [byteSize_append, Nat.add_assoc]⟩

end

theorem fragmentOf_ne_empty {c : Char} {rest : List Char} (white : isWhiteSpace c = false) :
    fragmentOf (c :: rest) ≠ "" := by
  intro empty
  have chars := congrArg String.toList empty
  simp [fragmentOf, white] at chars

/-- **Lexical errors.** An error is at a character that starts no lexeme: the text before it is
whole characters and splits into tokens by itself, and the fragment goes on to the next white space.
A text splits into tokens just if the lexer gets to no such character. -/
theorem tokenize_error (text : String) :
    (∀ e, tokenize text = .error e →
      (⟨e.offset⟩ : String.Pos.Raw).IsValid text ∧ e.fragment ≠ "" ∧
      ∃ first c rest, text = first ++ String.ofList (c :: rest) ∧
        first.utf8ByteSize = e.offset ∧ (∃ ts, tokenize first = .ok ts) ∧
        e.fragment = fragmentOf (c :: rest) ∧ GetsTo text.toList first.toList (c :: rest) ∧
        StartsNoLexeme c rest) ∧
    ((∃ ts, tokenize text = .ok ts) ↔ ∀ before c rest, GetsTo text.toList before (c :: rest) →
      ¬ StartsNoLexeme c rest) := by
  constructor
  · intro e h
    obtain ⟨before, c, rest, reached, stuck, rfl⟩ := exists_getsTo_of_error h
    have parts : text = String.ofList before ++ String.ofList (c :: rest) := by
      rw [← String.ofList_append, reached.append_eq, String.ofList_toList]
    have size : (String.ofList before).utf8ByteSize = 0 + byteSize before := by
      rw [utf8ByteSize_ofList, Nat.zero_add]
    refine ⟨?_, fragmentOf_ne_empty stuck.isWhiteSpace_eq_false, String.ofList before, c, rest,
      parts, size, ?_, rfl, ?_, stuck⟩
    · refine String.Pos.Raw.isValid_iff_exists_append.2 ⟨_, _, parts, ?_⟩
      rw [String.rawEndPos, size]
    · unfold tokenize
      rw [String.toList_ofList]
      exact reached.exists_tokens 0
    · rwa [String.toList_ofList]
  · constructor
    · rintro ⟨ts, hts⟩ before c rest reached stuck
      have failed := reached.scan_eq_error stuck 0
      rw [tokenize] at hts
      simp [hts] at failed
    · intro clear
      cases h : tokenize text with
      | ok ts => exact ⟨ts, rfl⟩
      | error e =>
        obtain ⟨before, c, rest, reached, stuck, -⟩ := exists_getsTo_of_error h
        exact absurd stuck (clear before c rest reached)

/-- A number with a sign that runs into a word, behind characters of two bytes. -/
theorem tokenize_error_minus :
    let text := "é >= -5é y"
    tokenize text = .error ⟨6, "-5é"⟩ ∧ ∃ first c rest, text = first ++ String.ofList (c :: rest) ∧
      first.utf8ByteSize = 6 ∧ (∃ ts, tokenize first = .ok ts) ∧ StartsNoLexeme c rest := by
  intro text
  have failed : tokenize text = .error ⟨6, "-5é"⟩ := by decide +kernel
  obtain ⟨-, -, first, c, rest, parts, size, lexed, -, -, stuck⟩ := (tokenize_error text).1 _ failed
  exact ⟨failed, first, c, rest, parts, size, lexed, stuck⟩

end Token

end RecordRules
