import Mathlib.Data.List.TakeWhile
import RecordRules.Proofs.Lexing

/-!
# Lexemes and the longest one

Which texts are lexemes, whatever stands around them. The lexer takes one of them at each place. It
takes a shorter one than it could only where the fraction of a number runs into a word, and then it
stops at the point, where no lexeme starts.
-/

namespace RecordRules

namespace Token

open Text (isWordChar isDecimalDigit isWhiteSpace)

/-! ## Texts that are lexemes -/

/-- Digits, with a fraction or without. -/
inductive IsUnsigned : List Char → Prop
  | whole {whole : List Char} (hne : whole ≠ []) (digits : ∀ c ∈ whole, isDecimalDigit c) :
      IsUnsigned whole
  | pointed {whole fraction : List Char} (hne : whole ≠ []) (digits : ∀ c ∈ whole, isDecimalDigit c)
      (hne' : fraction ≠ []) (digits' : ∀ c ∈ fraction, isDecimalDigit c) :
      IsUnsigned (whole ++ '.' :: fraction)

/-- A text that is a lexeme as a whole, and the kind of its token. -/
inductive IsLexeme : List Char → Kind → Prop
  | quoted {q : Char} {body : List Char} (quote : q = '\'' ∨ q = '"') (inside : q ∉ body) :
      IsLexeme (q :: body ++ [q]) (.quoted (String.ofList (q :: body ++ [q])))
  | pair {c d : Char} {kind : Kind} (listed : pairKind? c d = some kind) : IsLexeme [c, d] kind
  | sign {c : Char} {kind : Kind} (listed : signKind? c = some kind) : IsLexeme [c] kind
  | unsigned {digits : List Char} (number : IsUnsigned digits) :
      IsLexeme digits (.word (String.ofList digits))
  | negative {digits : List Char} (number : IsUnsigned digits) :
      IsLexeme ('-' :: digits) (.word (String.ofList ('-' :: digits)))
  | word {cs : List Char} (hne : cs ≠ []) (chars : ∀ c ∈ cs, isWordChar c) :
      IsLexeme cs (wordKind cs)

theorem isWordChar_minus : isWordChar '-' = false := by decide

theorem ne_minus_of_isWordChar {c : Char} (h : isWordChar c) : c ≠ '-' := by
  rintro rfl
  simp [isWordChar_minus] at h

theorem isWordChar_point : isWordChar '.' = false := by decide

theorem isDecimalDigit_point : isDecimalDigit '.' = false := by decide

theorem IsUnsigned.exists_cons {cs : List Char} (h : IsUnsigned cs) :
    ∃ c rest, cs = c :: rest ∧ isDecimalDigit c := by
  cases h with
  | whole hne digits =>
    obtain ⟨c, rest, rfl⟩ := List.exists_cons_of_ne_nil hne
    exact ⟨c, rest, rfl, digits c List.mem_cons_self⟩
  | pointed hne digits hne' digits' =>
    obtain ⟨c, rest, rfl⟩ := List.exists_cons_of_ne_nil hne
    exact ⟨c, _, rfl, digits c List.mem_cons_self⟩

theorem IsLexeme.ne_nil {cs : List Char} {kind : Kind} (h : IsLexeme cs kind) : cs ≠ [] := by
  cases h with
  | unsigned number =>
    obtain ⟨c, rest, rfl, -⟩ := number.exists_cons
    exact List.cons_ne_nil c rest
  | word hne chars => exact hne
  | _ => simp

/-! ## What the lexer takes is a lexeme -/

theorem fractionOf_cases (cs : List Char) :
    fractionOf cs = [] ∨ ∃ rest, cs = '.' :: rest ∧ rest.takeWhile isDecimalDigit ≠ [] ∧
      fractionOf cs = '.' :: rest.takeWhile isDecimalDigit := by
  unfold fractionOf
  split
  · rename_i rest
    dsimp only
    split
    · exact .inl rfl
    · rename_i hfraction
      exact .inr ⟨rest, rfl, fun hnil => hfraction (by simp [hnil]), rfl⟩
  · exact .inl rfl

theorem isDecimalDigit_of_mem_takeWhile {c : Char} {cs : List Char}
    (h : c ∈ cs.takeWhile isDecimalDigit) : isDecimalDigit c :=
  List.all_eq_true.1 List.all_takeWhile c h

theorem isUnsigned_of_unsigned? {cs n : List Char} (h : unsigned? cs = some n) : IsUnsigned n := by
  obtain ⟨hne, -, rfl⟩ := unsigned?_eq_some_iff.1 h
  rcases fractionOf_cases (cs.dropWhile isDecimalDigit) with hnil | ⟨rest, -, hne', hfraction⟩
  · rw [hnil, List.append_nil]
    exact .whole hne fun c => isDecimalDigit_of_mem_takeWhile
  · rw [hfraction]
    exact .pointed hne (fun c => isDecimalDigit_of_mem_takeWhile) hne'
      fun c => isDecimalDigit_of_mem_takeWhile

theorem wordLexeme?_minus (cs : List Char) :
    wordLexeme? ('-' :: cs) =
      (unsigned? cs).map fun n => ⟨.word (String.ofList ('-' :: n)), n.length + 1⟩ := by
  unfold wordLexeme?
  rw [number?_minus]
  cases unsigned? cs with
  | some n => rfl
  | none => simp [isWordChar_minus]

theorem wordLexeme?_of_ne_minus {c : Char} (h : c ≠ '-') (cs : List Char) :
    wordLexeme? (c :: cs) =
      match unsigned? (c :: cs) with
      | some n => some ⟨.word (String.ofList n), n.length⟩
      | none =>
        let word := (c :: cs).takeWhile isWordChar
        if word.isEmpty then none else some ⟨wordKind word, word.length⟩ := by
  have number := number?_of_ne_minus h cs
  cases hn : unsigned? (c :: cs) with
  | some n => simp [wordLexeme?, number, hn]
  | none => simp [wordLexeme?, number, hn]

theorem take_of_isPrefix {n cs : List Char} (h : n <+: cs) : cs.take n.length = n :=
  (List.prefix_iff_eq_take.1 h).symm

theorem isLexeme_of_wordLexeme? {c : Char} {cs : List Char} {l : Lexeme}
    (h : wordLexeme? (c :: cs) = some l) : IsLexeme ((c :: cs).take l.length) l.kind := by
  by_cases hc : c = '-'
  · subst hc
    rw [wordLexeme?_minus] at h
    obtain ⟨n, hn, rfl⟩ := Option.map_eq_some_iff.1 h
    rw [List.take_succ_cons, take_of_isPrefix (isPrefix_of_unsigned? hn).2]
    exact .negative (isUnsigned_of_unsigned? hn)
  · rw [wordLexeme?_of_ne_minus hc] at h
    cases hn : unsigned? (c :: cs) with
    | some n =>
      rw [hn] at h
      cases h
      rw [take_of_isPrefix (isPrefix_of_unsigned? hn).2]
      exact .unsigned (isUnsigned_of_unsigned? hn)
    | none =>
      rw [hn] at h
      dsimp only at h
      split at h
      · cases h
      · rename_i hword
        cases h
        rw [take_of_isPrefix (List.takeWhile_prefix isWordChar)]
        exact .word (by simpa using hword) fun d hd => List.all_eq_true.1 List.all_takeWhile d hd

theorem isLexeme_of_operatorLexeme? {cs : List Char} {l : Lexeme}
    (h : operatorLexeme? cs = some l) : IsLexeme (cs.take l.length) l.kind := by
  match cs with
  | [] => simp [operatorLexeme?] at h
  | [c] =>
    rw [operatorLexeme?_singleton] at h
    obtain ⟨kind, hkind, rfl⟩ := Option.map_eq_some_iff.1 h
    exact .sign hkind
  | c :: d :: cs =>
    rw [operatorLexeme?_cons_cons] at h
    rcases Option.or_eq_some_iff.1 h with h | ⟨-, h⟩
    · obtain ⟨kind, hkind, rfl⟩ := Option.map_eq_some_iff.1 h
      exact .pair hkind
    · obtain ⟨kind, hkind, rfl⟩ := Option.map_eq_some_iff.1 h
      exact .sign hkind

theorem isLexeme_of_lexeme? {cs : List Char} {l : Lexeme} (h : lexeme? cs = some l) :
    IsLexeme (cs.take l.length) l.kind := by
  cases cs with
  | nil => cases h
  | cons c cs =>
    by_cases hc : c = '\'' ∨ c = '"'
    · rw [lexeme?_quote hc] at h
      obtain ⟨body, after, rfl, hbody, rfl⟩ := quotedLexeme?_eq_some_iff.1 h
      have taken : (c :: (body ++ c :: after)).take (body.length + 2) = c :: body ++ [c] := by
        have whole : c :: (body ++ c :: after) = (c :: body ++ [c]) ++ after := by simp
        rw [whole, List.take_left' (by simp)]
      rw [taken]
      exact .quoted hc hbody
    · rw [lexeme?_of_ne_quote hc] at h
      rcases Option.or_eq_some_iff.1 h with h | ⟨-, h⟩
      · exact isLexeme_of_operatorLexeme? h
      · exact isLexeme_of_wordLexeme? h

/-! ## What the lexer takes is the longest lexeme -/

theorem length_le_takeWhile {p : Char → Bool} {m cs : List Char} (hm : ∀ c ∈ m, p c)
    (h : m <+: cs) : m.length ≤ (cs.takeWhile p).length := by
  obtain ⟨rest, rfl⟩ := h
  rw [List.takeWhile_append_of_pos hm, List.length_append]
  exact Nat.le_add_right _ _

/-- A number of digits ends where its word ends. -/
theorem length_word_le_of_unsigned? {cs n m : List Char} (hn : unsigned? cs = some n)
    (hm : ∀ c ∈ m, isWordChar c) (h : m <+: cs) : m.length ≤ n.length := by
  obtain ⟨-, wordEnd, rfl⟩ := unsigned?_eq_some_iff.1 hn
  have digits : ∀ c ∈ cs.takeWhile isDecimalDigit, isWordChar c := fun c hc =>
    Text.isWordChar_of_isDecimalDigit (isDecimalDigit_of_mem_takeWhile hc)
  have word : cs.takeWhile isWordChar = cs.takeWhile isDecimalDigit := by
    conv => lhs; rw [← List.takeWhile_append_dropWhile (p := isDecimalDigit) (l := cs)]
    rw [List.takeWhile_append_of_pos digits]
    cases hrest : cs.dropWhile isDecimalDigit with
    | nil => simp
    | cons c rest =>
      have : isWordChar c = false := by simpa [hrest, atWordEnd] using wordEnd
      simp [this]
  have := length_le_takeWhile hm h
  rw [word] at this
  rw [List.length_append]
  omega

theorem takeWhile_whole {whole : List Char} (digits : ∀ c ∈ whole, isDecimalDigit c)
    (rest : List Char) : (whole ++ '.' :: rest).takeWhile isDecimalDigit = whole ∧
      (whole ++ '.' :: rest).dropWhile isDecimalDigit = '.' :: rest := by
  rw [List.takeWhile_append_of_pos digits, List.dropWhile_append_of_pos digits]
  simp [isDecimalDigit_point]

/-- A number that leaves its fraction out stops at the point. -/
theorem length_pointed_le_of_unsigned? {cs n whole fraction : List Char}
    (hn : unsigned? cs = some n) (stop : (cs.drop n.length).head? ≠ some '.')
    (digits : ∀ c ∈ whole, isDecimalDigit c) (digits' : ∀ c ∈ fraction, isDecimalDigit c)
    (h : whole ++ '.' :: fraction <+: cs) : (whole ++ '.' :: fraction).length ≤ n.length := by
  obtain ⟨rest, rfl⟩ := h
  rw [List.append_assoc, List.cons_append] at hn stop
  obtain ⟨htake, hdrop⟩ := takeWhile_whole digits (fraction ++ rest)
  obtain ⟨-, -, rfl⟩ := unsigned?_eq_some_iff.1 hn
  rw [htake, hdrop] at stop ⊢
  rcases fractionOf_cases ('.' :: (fraction ++ rest)) with hnil | ⟨rest', hrest, -, hfraction⟩
  · rw [hnil, List.append_nil, List.drop_left] at stop
    exact absurd rfl stop
  · obtain rfl : fraction ++ rest = rest' := (List.cons.inj hrest).2
    have := length_le_takeWhile digits' (List.prefix_append fraction rest)
    simp only [hfraction, List.length_append, List.length_cons]
    omega

theorem length_le_of_unsigned? {cs n m : List Char} (hn : unsigned? cs = some n)
    (stop : (cs.drop n.length).head? ≠ some '.') (hm : IsUnsigned m) (h : m <+: cs) :
    m.length ≤ n.length := by
  cases hm with
  | whole hne digits =>
    exact length_word_le_of_unsigned? hn
      (fun c hc => Text.isWordChar_of_isDecimalDigit (digits c hc)) h
  | pointed hne digits hne' digits' => exact length_pointed_le_of_unsigned? hn stop digits digits' h

/-- Where a word is no number, no number with a fraction starts. -/
theorem length_le_of_unsigned?_eq_none {cs m : List Char} (hn : unsigned? cs = none)
    (hm : IsUnsigned m) (h : m <+: cs) : m.length ≤ (cs.takeWhile isWordChar).length := by
  cases hm with
  | whole hne digits =>
    exact length_le_takeWhile (fun c hc => Text.isWordChar_of_isDecimalDigit (digits c hc)) h
  | @pointed whole fraction hne digits hne' digits' =>
    obtain ⟨rest, rfl⟩ := h
    rw [List.append_assoc, List.cons_append] at hn
    obtain ⟨htake, hdrop⟩ := takeWhile_whole digits (fraction ++ rest)
    have number : unsigned? (whole ++ '.' :: (fraction ++ rest)) ≠ none := by
      rw [(unsigned?_eq_some_iff (n := _)).2 ⟨by rwa [htake], ?_, rfl⟩]
      · exact Option.some_ne_none _
      · rw [hdrop]
        simp [atWordEnd, isWordChar_point]
    exact absurd hn number

theorem lexeme?_eq_wordLexeme? {c : Char} (h : isWordChar c ∨ c = '-') (cs : List Char) :
    lexeme? (c :: cs) = wordLexeme? (c :: cs) := by
  have quote : ¬ (c = '\'' ∨ c = '"') := by
    rintro (rfl | rfl)
    · exact absurd h (by decide)
    · exact absurd h (by decide)
  rw [lexeme?_of_ne_quote quote, operatorLexeme?_eq_none h, Option.none_or]

/-- At a word character a number is taken, or else the word. -/
theorem length_of_lexeme?_word {c : Char} {cs : List Char} {l : Lexeme} (hc : isWordChar c)
    (hl : lexeme? (c :: cs) = some l) :
    (∃ n, unsigned? (c :: cs) = some n ∧ l.length = n.length) ∨
      unsigned? (c :: cs) = none ∧ l.length = ((c :: cs).takeWhile isWordChar).length := by
  rw [lexeme?_eq_wordLexeme? (.inl hc), wordLexeme?_of_ne_minus (ne_minus_of_isWordChar hc)] at hl
  cases hn : unsigned? (c :: cs) with
  | some n =>
    rw [hn] at hl
    cases hl
    exact .inl ⟨n, rfl, rfl⟩
  | none =>
    rw [hn] at hl
    dsimp only at hl
    split at hl
    · cases hl
    · cases hl
      exact .inr ⟨rfl, rfl⟩

section
variable {cs m : List Char} {l : Lexeme} (hl : lexeme? cs = some l) (h : m <+: cs)
include hl h

theorem length_quoted_le {q : Char} {body : List Char} (quote : q = '\'' ∨ q = '"')
    (inside : q ∉ body) (hm : m = q :: body ++ [q]) : m.length ≤ l.length := by
  subst hm
  obtain ⟨rest, rfl⟩ := h
  have text : q :: body ++ [q] ++ rest = q :: (body ++ q :: rest) := by simp
  rw [text, lexeme?_quote quote, quotedLexeme?_eq_some_iff.2 ⟨body, rest, rfl, inside, rfl⟩] at hl
  cases hl
  simp

theorem length_pair_le {c d : Char} {kind : Kind} (listed : pairKind? c d = some kind)
    (hm : m = [c, d]) : m.length ≤ l.length := by
  subst hm
  obtain ⟨rest, rfl⟩ := h
  have quote : ¬ (c = '\'' ∨ c = '"') := by
    rintro (rfl | rfl) <;> simp [pairKind?] at listed
  rw [List.cons_append, lexeme?_of_ne_quote quote, List.cons_append, operatorLexeme?_cons_cons,
    listed] at hl
  cases hl
  exact Nat.le_refl 2

variable (stop : (cs.drop l.length).head? ≠ some '.')
include stop

theorem length_negative_le {digits : List Char} (number : IsUnsigned digits)
    (hm : m = '-' :: digits) : m.length ≤ l.length := by
  subst hm
  obtain ⟨rest, rfl⟩ := h
  rw [List.cons_append, lexeme?_eq_wordLexeme? (.inr rfl), wordLexeme?_minus] at hl
  obtain ⟨n, hn, rfl⟩ := Option.map_eq_some_iff.1 hl
  have := length_le_of_unsigned? hn (by simpa using stop) number (List.prefix_append digits rest)
  simpa using this

theorem length_unsigned_le (number : IsUnsigned m) : m.length ≤ l.length := by
  obtain ⟨c, digits, rfl, hc⟩ := number.exists_cons
  obtain ⟨rest, rfl⟩ := h
  have start := List.prefix_append (c :: digits) rest
  rw [List.cons_append] at hl stop start
  rcases length_of_lexeme?_word (Text.isWordChar_of_isDecimalDigit hc) hl with
    ⟨n, hn, hlength⟩ | ⟨hn, hlength⟩
  · rw [hlength] at stop ⊢
    exact length_le_of_unsigned? hn stop number start
  · rw [hlength]
    exact length_le_of_unsigned?_eq_none hn number start

omit stop in
theorem length_word_le (hne : m ≠ []) (chars : ∀ c ∈ m, isWordChar c) : m.length ≤ l.length := by
  obtain ⟨c, word, rfl⟩ := List.exists_cons_of_ne_nil hne
  obtain ⟨rest, rfl⟩ := h
  have start := List.prefix_append (c :: word) rest
  rw [List.cons_append] at hl start
  rcases length_of_lexeme?_word (chars c List.mem_cons_self) hl with
    ⟨n, hn, hlength⟩ | ⟨-, hlength⟩
  · rw [hlength]
    exact length_word_le_of_unsigned? hn chars start
  · rw [hlength]
    exact length_le_takeWhile chars start

theorem length_le_of_lexeme? {kind : Kind} (hm : IsLexeme m kind) : m.length ≤ l.length := by
  cases hm with
  | quoted quote inside => exact length_quoted_le hl h quote inside rfl
  | pair listed => exact length_pair_le hl h listed rfl
  | sign listed => exact (lexeme?_length hl).1
  | unsigned number => exact length_unsigned_le hl h stop number
  | negative number => exact length_negative_le hl h stop number rfl
  | word hne chars => exact length_word_le hl h hne chars

end

end Token

end RecordRules
