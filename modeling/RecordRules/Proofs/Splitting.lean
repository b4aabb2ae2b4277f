import RecordRules.Proofs.Lexemes
import RecordRules.Proofs.Results

/-!
# A text is its white space and its lexemes

A text that splits into tokens is put together from white space and the lexemes of its tokens, in
one way only: nothing is left out, joined or doubled. Each lexeme is the longest at its place.
-/

namespace RecordRules

namespace Token

open Text (isWordChar isDecimalDigit isWhiteSpace)

def IsSpace (cs : List Char) : Prop := ∀ c ∈ cs, isWhiteSpace c

/-- The lexemes that a token can stand for: its own text, and `=>` for `>=`. -/
def Shows (lexeme : List Char) (kind : Kind) : Prop :=
  lexeme = kind.text.toList ∨ kind = .comparator .gteq ∧ lexeme = ['=', '>']

/-- A text from byte `offset` on as pieces, each of white space and then the lexeme of a token, with
white space at the end. Each token starts where its lexeme starts; `P` tells what holds of a lexeme,
the text after it and the kind of its token. -/
inductive Splits (P : List Char → List Char → Kind → Prop) :
    Nat → List Char → List Token → List (List Char × List Char) → List Char → Prop
  | last {offset : Nat} {space : List Char} (white : IsSpace space) :
      Splits P offset space [] [] space
  | piece {offset : Nat} {space lexeme rest last : List Char} {kind : Kind} {ts : List Token}
      {pieces : List (List Char × List Char)} (white : IsSpace space) (hne : lexeme ≠ [])
      (holds : P lexeme rest kind)
      (after : Splits P (offset + byteSize space + byteSize lexeme) rest ts pieces last) :
      Splits P offset (space ++ (lexeme ++ rest)) (⟨kind, offset + byteSize space⟩ :: ts)
        ((space, lexeme) :: pieces) last

/-- What the lexer takes at the start of a text: the longest lexeme. -/
structure Taken (lexeme rest : List Char) (kind : Kind) : Prop where
  isLexeme : IsLexeme lexeme kind
  shows : Shows lexeme kind
  longest : ∀ m k, IsLexeme m k → m <+: lexeme ++ rest → m.length ≤ lexeme.length
  keyword : ∀ k : Combinator, kind = .combinator k ↔ lexeme = k.keyword.toList

/-! ## Sizes in bytes -/

theorem byteSize_append (cs ds : List Char) : byteSize (cs ++ ds) = byteSize cs + byteSize ds := by
  induction cs with
  | nil => simp [byteSize]
  | cons c cs ih => simp [byteSize, ih, Nat.add_assoc]

theorem byteSize_pos {cs : List Char} (h : cs ≠ []) : 0 < byteSize cs := by
  obtain ⟨c, rest, rfl⟩ := List.exists_cons_of_ne_nil h
  have := c.utf8Size_pos
  simp only [byteSize]
  omega

theorem utf8ByteSize_ofList (cs : List Char) : (String.ofList cs).utf8ByteSize = byteSize cs := by
  induction cs with
  | nil => rfl
  | cons c cs ih =>
    rw [← List.singleton_append, String.ofList_append, String.utf8ByteSize_append, ih,
      ← String.singleton_eq_ofList, String.utf8ByteSize_singleton]
    rfl

theorem eq_nil_of_byteSize_eq_zero {cs : List Char} (h : byteSize cs = 0) : cs = [] := by
  by_contra hne
  have := byteSize_pos hne
  omega

/-- Two starts of one text are equal if they have one size. -/
theorem eq_of_byteSize_eq {cs ds us vs : List Char} (h : cs ++ us = ds ++ vs)
    (size : byteSize cs = byteSize ds) : cs = ds ∧ us = vs := by
  rcases List.append_eq_append_iff.1 h with ⟨as, rfl, rfl⟩ | ⟨as, rfl, rfl⟩
  · rw [byteSize_append] at size
    obtain rfl : as = [] := eq_nil_of_byteSize_eq_zero (by omega)
    simp
  · rw [byteSize_append] at size
    obtain rfl : as = [] := eq_nil_of_byteSize_eq_zero (by omega)
    simp

/-! ## What a lexeme shows -/

theorem wordKind_text (cs : List Char) : (wordKind cs).text = String.ofList cs := by
  unfold wordKind
  dsimp only
  cases hk : Combinator.ofKeyword? (String.ofList cs) with
  | none => rfl
  | some k =>
    have same := List.find?_some hk
    exact beq_iff_eq.1 same

theorem IsLexeme.shows {cs : List Char} {kind : Kind} (h : IsLexeme cs kind) : Shows cs kind := by
  cases h with
  | pair listed =>
    unfold pairKind? at listed
    unfold Shows
    split at listed <;> cases listed <;> decide
  | sign listed =>
    unfold signKind? at listed
    unfold Shows
    split at listed <;> cases listed <;> decide
  | word hne chars => exact .inl (by rw [wordKind_text, String.toList_ofList])
  | _ => exact .inl String.toList_ofList.symm

theorem Shows.length_eq {cs : List Char} {kind : Kind} (h : Shows cs kind) :
    cs.length = kind.text.toList.length := by
  rcases h with rfl | ⟨rfl, rfl⟩
  · rfl
  · decide

theorem Shows.eq_keyword {cs : List Char} {k : Combinator} (h : Shows cs (.combinator k)) :
    cs = k.keyword.toList := by
  rcases h with rfl | ⟨hkind, -⟩
  · rfl
  · cases hkind

theorem wordKind_keyword (k : Combinator) : wordKind k.keyword.toList = .combinator k := by
  rw [wordKind, String.ofList_toList, Combinator.ofKeyword?_keyword]

theorem IsLexeme.isKeyword {k : Combinator} {kind : Kind} (h : IsLexeme k.keyword.toList kind) :
    kind = .combinator k := by
  have letters : k.keyword.toList = ['A', 'N', 'D'] ∨ k.keyword.toList = ['O', 'R'] := by
    cases k <;> decide
  generalize hcs : k.keyword.toList = cs at h letters
  cases h with
  | quoted quote inside => rcases quote with rfl | rfl <;> simp at letters
  | pair listed =>
    obtain ⟨rfl, rfl⟩ : _ = 'O' ∧ _ = 'R' := by simpa using letters
    cases listed
  | sign listed => simp at letters
  | unsigned number =>
    obtain ⟨c, rest, rfl, hc⟩ := number.exists_cons
    have upper : c = 'A' ∨ c = 'O' := by
      rcases letters with h | h
      · exact .inl (List.cons.inj h).1
      · exact .inr (List.cons.inj h).1
    rcases upper with rfl | rfl <;> exact absurd hc (by decide)
  | negative number => simp at letters
  | word hne chars => rw [← hcs, wordKind_keyword]

/-! ## The scan from lexeme to lexeme -/

theorem scan_skip {inside : Nat} {cs : List Char} (h : inside ≤ cs.length) (offset : Nat) :
    scan inside offset cs =
      scan 0 (offset + byteSize (cs.take inside)) (cs.drop inside) := by
  induction cs generalizing inside offset with
  | nil =>
    obtain rfl : inside = 0 := Nat.le_zero.1 h
    rfl
  | cons c cs ih =>
    cases inside with
    | zero => rfl
    | succ inside =>
      rw [scan_succ, ih (Nat.le_of_succ_le_succ h), List.take_succ_cons, List.drop_succ_cons,
        byteSize, Nat.add_assoc]

theorem scan_space {space : List Char} (white : IsSpace space) (offset : Nat) (rest : List Char) :
    scan 0 offset (space ++ rest) = scan 0 (offset + byteSize space) rest := by
  induction space generalizing offset with
  | nil => rfl
  | cons c space ih =>
    obtain ⟨hc, white⟩ := List.forall_mem_cons.1 white
    rw [List.cons_append, scan_whiteSpace hc, ih white, byteSize, Nat.add_assoc]

theorem scan_whole_lexeme {c : Char} {cs : List Char} {l : Lexeme} (h : isWhiteSpace c = false)
    (hl : lexeme? (c :: cs) = some l) (offset : Nat) :
    scan 0 offset (c :: cs) = (⟨l.kind, offset⟩ :: ·) <$>
      scan 0 (offset + byteSize ((c :: cs).take l.length)) ((c :: cs).drop l.length) := by
  obtain ⟨length, hlength⟩ := Nat.exists_eq_succ_of_ne_zero (lexeme?_length hl).1.ne'
  have inside := (lexeme?_length hl).2
  rw [hlength, List.length_cons] at inside
  rw [scan_lexeme h hl, hlength, Nat.succ_sub_one, scan_skip (Nat.le_of_succ_le_succ inside),
    List.take_succ_cons, List.drop_succ_cons, byteSize, Nat.add_assoc]

/-- A point starts no lexeme and is no white space. -/
theorem head?_ne_point {offset : Nat} {cs : List Char} {ts : List Token}
    (h : scan 0 offset cs = .ok ts) : cs.head? ≠ some '.' := by
  intro hpoint
  obtain ⟨rest, rfl⟩ := List.head?_eq_some_iff.1 hpoint
  have white : isWhiteSpace '.' = false := by decide
  have noLexeme : lexeme? ('.' :: rest) = none := by
    have digit : unsigned? ('.' :: rest) = none := by simp [unsigned?, isDecimalDigit_point]
    have sign : operatorLexeme? ('.' :: rest) = none := by simp [operatorLexeme?]
    rw [lexeme?_of_ne_quote (by decide), sign, wordLexeme?_of_ne_minus (by decide), digit]
    simp [isWordChar_point]
  rw [scan_error white noLexeme] at h
  cases h

theorem exists_splits {offset : Nat} {cs : List Char} {ts : List Token}
    (h : scan 0 offset cs = .ok ts) : ∃ pieces last, Splits Taken offset cs ts pieces last := by
  induction hn : cs.length using Nat.strong_induction_on generalizing cs offset ts with
  | _ n ih =>
    have white : IsSpace (cs.takeWhile isWhiteSpace) := fun c hc =>
      List.all_eq_true.1 List.all_takeWhile c hc
    have apart := List.head?_dropWhile_not isWhiteSpace cs
    have parts := List.takeWhile_append_dropWhile (p := isWhiteSpace) (l := cs)
    generalize cs.takeWhile isWhiteSpace = space at white parts
    generalize cs.dropWhile isWhiteSpace = start at apart parts
    subst parts
    rw [scan_space white] at h
    cases start with
    | nil =>
      cases h
      rw [List.append_nil]
      exact ⟨[], space, .last white⟩
    | cons c rest =>
      have hc : isWhiteSpace c = false := by simpa using apart
      cases hl : lexeme? (c :: rest) with
      | none =>
        rw [scan_error hc hl] at h
        cases h
      | some l =>
        obtain ⟨hpos, hle⟩ := lexeme?_length hl
        rw [scan_whole_lexeme hc hl] at h
        obtain ⟨us, hus, rfl⟩ := exists_of_map_eq_ok h
        have parts := List.take_append_drop l.length (c :: rest)
        have shorter : ((c :: rest).drop l.length).length < n := by
          rw [← hn, List.length_drop, List.length_append]
          omega
        obtain ⟨pieces, last, after⟩ := ih _ shorter hus rfl
        have taken := isLexeme_of_lexeme? hl
        rw [← parts]
        -- The scan goes on after this lexeme, so no point stands there.
        refine ⟨_, last, .piece white taken.ne_nil ⟨taken, taken.shows, ?_, ?_⟩ after⟩
        · intro m k hm hprefix
          rw [parts] at hprefix
          rw [List.length_take_of_le hle]
          exact length_le_of_lexeme? hl hprefix (head?_ne_point hus) hm
        · intro k
          constructor
          · intro hk
            exact (hk ▸ taken.shows).eq_keyword
          · intro hk
            exact (hk ▸ taken).isKeyword

/-! ## One way to split -/

/-- The offsets of the tokens and the texts they show fix the pieces. -/
theorem Splits.unique {P : List Char → List Char → Kind → Prop}
    (shows : ∀ l r k, P l r k → Shows l k) {offset : Nat} {cs : List Char} {ts : List Token}
    {pieces pieces' : List (List Char × List Char)} {last last' : List Char}
    (h : Splits P offset cs ts pieces last)
    (h' : Splits (fun lexeme _ kind => Shows lexeme kind) offset cs ts pieces' last') :
    pieces' = pieces ∧ last' = last := by
  induction h generalizing pieces' last' with
  | last white =>
    cases h'
    exact ⟨rfl, rfl⟩
  | @piece offset space lexeme rest last kind ts pieces white hne holds after ih =>
    generalize htext : space ++ (lexeme ++ rest) = text at h'
    generalize htokens : (⟨kind, offset + byteSize space⟩ :: ts : List Token) = tokens at h'
    cases h' with
    | last white' => cases htokens
    | @piece _ space' lexeme' rest' _ kind' ts' pieces' white' hne' shown' after' =>
      obtain ⟨hkind, htail⟩ := List.cons.inj htokens
      obtain ⟨rfl, hoffset⟩ := Token.mk.inj hkind
      subst htail
      -- Equal offsets give equal white space, equal texts of the token equal lexemes.
      obtain ⟨rfl, hafter⟩ := eq_of_byteSize_eq htext (by omega)
      have length : lexeme.length = lexeme'.length := by
        rw [(shows _ _ _ holds).length_eq, shown'.length_eq]
      obtain ⟨rfl, rfl⟩ := List.append_inj hafter length
      obtain ⟨rfl, rfl⟩ := ih after'
      exact ⟨rfl, rfl⟩

/-! ## Offsets -/

section
variable {P : List Char → List Char → Kind → Prop} {offset : Nat} {cs : List Char} {ts : List Token}
  {pieces : List (List Char × List Char)} {last : List Char}

theorem Splits.le_offset (h : Splits P offset cs ts pieces last) : ∀ t ∈ ts, offset ≤ t.offset := by
  induction h with
  | last white => simp
  | piece white hne holds after ih =>
    intro t ht
    rcases List.mem_cons.1 ht with rfl | ht
    · exact Nat.le_add_right _ _
    · have := ih t ht
      omega

theorem Splits.pairwise_offset (h : Splits P offset cs ts pieces last) :
    ts.Pairwise (·.offset < ·.offset) := by
  induction h with
  | last white => exact .nil
  | piece white hne holds after ih =>
    refine List.pairwise_cons.2 ⟨fun t ht => ?_, ih⟩
    have later := after.le_offset t ht
    have := byteSize_pos hne
    dsimp only
    omega

theorem Splits.exists_before (h : Splits P offset cs ts pieces last) {t : Token} (ht : t ∈ ts) :
    ∃ before rest, cs = before ++ rest ∧ t.offset = offset + byteSize before := by
  induction h with
  | last white => cases ht
  | @piece offset space lexeme rest last kind ts pieces white hne holds after ih =>
    rcases List.mem_cons.1 ht with rfl | ht
    · exact ⟨space, _, rfl, rfl⟩
    · obtain ⟨before, rest, rfl, hoffset⟩ := ih ht
      refine ⟨space ++ (lexeme ++ before), rest, by simp only [List.append_assoc], ?_⟩
      rw [hoffset, byteSize_append, byteSize_append]
      omega

end

theorem eq_ok_of_toOption {ε α : Type} {r : Except ε α} {a : α} (h : r.toOption = some a) :
    r = .ok a := by
  cases r with
  | error e => cases h
  | ok b =>
    cases h
    rfl

/-- **Lossless.** A text that splits into tokens is white space and lexemes in one way: each lexeme
starts at the offset of its token, is what the token shows, and is the longest at its place. -/
theorem tokenize_lossless {text : String} {tokens : List Token} (h : tokenize text = .ok tokens) :
    tokens.Pairwise (·.offset < ·.offset) ∧
      (∀ t ∈ tokens, (⟨t.offset⟩ : String.Pos.Raw).IsValid text) ∧
      ∃ pieces last, Splits Taken 0 text.toList tokens pieces last ∧
        ∀ pieces' last', Splits (fun lexeme _ kind => Shows lexeme kind) 0 text.toList tokens
          pieces' last' → pieces' = pieces ∧ last' = last := by
  obtain ⟨pieces, last, hsplits⟩ := exists_splits h
  refine ⟨hsplits.pairwise_offset, ?_, pieces, last, hsplits, ?_⟩
  · intro t ht
    obtain ⟨before, rest, htext, hoffset⟩ := hsplits.exists_before ht
    refine String.Pos.Raw.isValid_iff_exists_append.2
      ⟨String.ofList before, String.ofList rest, ?_, ?_⟩
    · rw [← String.ofList_append, ← htext, String.ofList_toList]
    · rw [hoffset, Nat.zero_add, String.rawEndPos, utf8ByteSize_ofList]
  · intro pieces' last' h'
    exact hsplits.unique (fun _ _ _ taken => taken.shows) h'

/-- A text with the other sign for "at least", a number with a fraction and white space at its
end. -/
theorem tokenize_lossless_atLeast :
    let tokens : List Token := [⟨.word "n", 0⟩, ⟨.comparator .gteq, 2⟩, ⟨.word "5.5", 5⟩]
    tokenize "n => 5.5 " = .ok tokens ∧
      Splits Taken 0 "n => 5.5 ".toList tokens
        [([], ['n']), ([' '], ['=', '>']), ([' '], ['5', '.', '5'])] [' '] := by
  intro tokens
  have lexed : tokenize "n => 5.5 " = .ok tokens := eq_ok_of_toOption (by decide +kernel)
  obtain ⟨-, -, pieces, last, taken, unique⟩ := tokenize_lossless lexed
  have white : IsSpace [' '] := by
    intro c hc
    obtain rfl := List.mem_singleton.1 hc
    decide
  have explicit : Splits (fun lexeme _ kind => Shows lexeme kind) 0 "n => 5.5 ".toList tokens
      [([], ['n']), ([' '], ['=', '>']), ([' '], ['5', '.', '5'])] [' '] := by
    have parts : "n => 5.5 ".toList =
        [] ++ (['n'] ++ ([' '] ++ (['=', '>'] ++ ([' '] ++ (['5', '.', '5'] ++ [' ']))))) := by
      decide
    rw [parts]
    refine .piece (fun c hc => nomatch hc) (List.cons_ne_nil _ _) (.inl (by decide)) ?_
    refine .piece white (List.cons_ne_nil _ _) (.inr ⟨rfl, rfl⟩) ?_
    refine .piece white (List.cons_ne_nil _ _) (.inl (by decide)) ?_
    exact .last white
  obtain ⟨rfl, rfl⟩ := unique _ _ explicit
  exact ⟨lexed, taken⟩

end Token

end RecordRules
