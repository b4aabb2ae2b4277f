import Mathlib.Data.List.TakeWhile
import RecordRules.Proofs.Lexing
import RecordRules.Proofs.LiteralText
import RecordRules.Proofs.Parsing

/-!
# Trees written as rule text and compiled again

The text of a tree is made of pieces that start apart from each other, so its tokens are those of
the pieces. They are a term of the grammar with the tree, in as many parentheses as the tree is
high.
-/

namespace RecordRules

namespace Token

open Text (isWhiteSpace isWordChar isDecimalDigit)

/-- A text that is a bare word, as the name of a field is. -/
def IsWord (text : String) : Prop := tokenize text = .ok [⟨.word text, 0⟩]

instance (text : String) : Decidable (IsWord text) := inferInstanceAs (Decidable (_ = _))

/-! ## Texts and the kinds of their tokens -/

/-- A text whose tokens are of these kinds. -/
def Spells (cs : List Char) (ks : List Kind) : Prop :=
  ∃ ts, scan 0 0 cs = .ok ts ∧ ts.map (·.kind) = ks

theorem Spells.scan {cs : List Char} {ks : List Kind} (h : Spells cs ks) (offset : Nat) :
    ∃ ts, scan 0 offset cs = .ok ts ∧ ts.map (·.kind) = ks := by
  obtain ⟨ts, hts, rfl⟩ := h
  have moved := scan_add offset 0 0 cs
  rw [hts, Nat.add_zero] at moved
  exact ⟨_, moved, by simp⟩

theorem Spells.append {cs ds : List Char} {ks ls : List Kind} (hcs : Spells cs ks)
    (hds : Spells ds ls) (apart : StartsApart ds) : Spells (cs ++ ds) (ks ++ ls) := by
  obtain ⟨ts, hts, rfl⟩ := hcs
  obtain ⟨us, hus, rfl⟩ := hds.scan (0 + byteSize cs)
  refine ⟨ts ++ us, ?_, List.map_append⟩
  rw [scan_append (Nat.zero_le _) hts apart, hus]
  rfl

theorem spells_space {cs : List Char} {ks : List Kind} (h : Spells cs ks) :
    Spells (' ' :: cs) ks := by
  obtain ⟨ts, hts, hks⟩ := h.scan (0 + ' '.utf8Size)
  exact ⟨ts, by rw [scan_whiteSpace (by decide), hts], hks⟩

theorem spells_openParen {cs : List Char} {ks : List Kind} (h : Spells cs ks) :
    Spells ('(' :: cs) (.openParen :: ks) := by
  obtain ⟨ts, hts, rfl⟩ := h.scan (0 + '('.utf8Size)
  have lexeme : lexeme? ('(' :: cs) = some ⟨.openParen, 1⟩ := rfl
  refine ⟨⟨.openParen, 0⟩ :: ts, ?_, rfl⟩
  rw [scan_lexeme (by decide) lexeme]
  exact congrArg ((⟨.openParen, 0⟩ :: ·) <$> ·) hts

theorem scan_length (offset : Nat) (cs : List Char) : scan cs.length offset cs = .ok [] := by
  induction cs generalizing offset with
  | nil => rfl
  | cons c cs ih => rw [List.length_cons, scan_succ, ih]

/-- A text that is taken whole is one token. -/
theorem scan_of_lexeme? {c : Char} {cs : List Char} {kind : Kind} (hc : isWhiteSpace c = false)
    (h : lexeme? (c :: cs) = some ⟨kind, cs.length + 1⟩) :
    scan 0 0 (c :: cs) = .ok [⟨kind, 0⟩] := by
  rw [scan_lexeme hc h, Nat.add_sub_cancel, scan_length]
  rfl

theorem spells_of_lexeme? {c : Char} {cs : List Char} {kind : Kind} (hc : isWhiteSpace c = false)
    (h : lexeme? (c :: cs) = some ⟨kind, cs.length + 1⟩) : Spells (c :: cs) [kind] :=
  ⟨_, scan_of_lexeme? hc h, rfl⟩

theorem spells_closeParen : Spells [')'] [.closeParen] :=
  spells_of_lexeme? (by decide) rfl

theorem IsWord.spells {text : String} (h : IsWord text) : Spells text.toList [.word text] :=
  ⟨_, h, rfl⟩

theorem spells_symbol (c : Comparator) : Spells c.symbol.toList [.comparator c] := by
  cases c <;> exact ⟨_, rfl, rfl⟩

theorem spells_keyword (k : Combinator) : Spells k.keyword.toList [.combinator k] := by
  cases k <;> exact ⟨_, rfl, rfl⟩

/-! ## Literals -/

theorem isWhiteSpace_eq_false_of_start {c : Char} (h : isWordChar c ∨ c = '-') :
    isWhiteSpace c = false := by
  rcases h with h | rfl
  · exact Text.isWhiteSpace_eq_false_of_isWordChar h
  · decide +kernel

theorem isDecimalDigit_of_isDigit {c : Char} (h : c.isDigit) : isDecimalDigit c := by
  have : 48 ≤ c.toNat ∧ c.toNat ≤ 57 := Char.isDigit_iff_toNat.1 h
  simp [isDecimalDigit, Text.decimalDigitRanges, Text.inRanges, this]

theorem fractionOf_digits {fraction : List Char} (hne : fraction ≠ [])
    (hfraction : ∀ c ∈ fraction, isDecimalDigit c) :
    fractionOf ('.' :: fraction) = '.' :: fraction := by
  have digits : fraction.takeWhile isDecimalDigit = fraction :=
    List.takeWhile_eq_self_iff.2 hfraction
  simp [fractionOf, digits, hne, atWordEnd]

theorem unsigned?_digits {whole tail : List Char} (hne : whole ≠ [])
    (hwhole : ∀ c ∈ whole, isDecimalDigit c) (hend : atWordEnd tail)
    (htail : fractionOf tail = tail) : unsigned? (whole ++ tail) = some (whole ++ tail) := by
  have stop : ∀ c ∈ tail.head?, isDecimalDigit c = false := by
    cases tail with
    | nil => simp
    | cons c tail =>
      refine fun d hd => Bool.eq_false_iff.2 fun hdigit => ?_
      obtain rfl : c = d := by simpa using hd
      simp [atWordEnd, Text.isWordChar_of_isDecimalDigit hdigit] at hend
  have taken : (whole ++ tail).takeWhile isDecimalDigit = whole := by
    rw [takeWhile_append stop, List.takeWhile_eq_self_iff.2 hwhole]
  have dropped : (whole ++ tail).dropWhile isDecimalDigit = tail := by
    rw [← drop_length_takeWhile, taken, List.drop_left]
  exact unsigned?_eq_some_iff.2 ⟨by rwa [taken], by rwa [dropped], by rw [taken, dropped, htail]⟩

theorem spells_number (negative : Bool) {whole tail : List Char} (hne : whole ≠ [])
    (hwhole : ∀ c ∈ whole, c.isDigit) (hend : atWordEnd tail) (htail : fractionOf tail = tail) :
    Spells (Literal.signChars negative ++ (whole ++ tail))
      [.word (String.ofList (Literal.signChars negative ++ (whole ++ tail)))] := by
  have digits := unsigned?_digits hne (fun c hc => isDecimalDigit_of_isDigit (hwhole c hc)) hend htail
  obtain ⟨c, cs, hcs, hc⟩ := Literal.exists_signed_eq_cons negative hne hwhole tail
  have number : number? (c :: cs) = some (c :: cs) := by
    rw [← hcs]
    cases negative with
    | true => rw [Literal.signChars, if_pos rfl, List.singleton_append, number?_minus, digits]; rfl
    | false =>
      obtain ⟨d, ds, rfl⟩ := List.exists_cons_of_ne_nil hne
      have hd : d ≠ '-' := fun h => by simpa [h] using hwhole d List.mem_cons_self
      simpa [Literal.signChars, number?_of_ne_minus hd] using digits
  have start : isWordChar c ∨ c = '-' :=
    hc.symm.imp_left fun h => Text.isWordChar_of_isDecimalDigit (isDecimalDigit_of_isDigit h)
  have space := isWhiteSpace_eq_false_of_start start
  have quote : ¬ (c = '\'' ∨ c = '"') := by
    rintro (rfl | rfl) <;> simp at hc
  rw [hcs]
  refine spells_of_lexeme? space ?_
  rw [lexeme?_of_ne_quote quote, operatorLexeme?_eq_none start, wordLexeme?, number]
  rfl

theorem spells_quoted {q : Char} (hq : q = '\'' ∨ q = '"') {body : List Char} (h : q ∉ body) :
    Spells (q :: (body ++ [q])) [.quoted (String.ofList (q :: (body ++ [q])))] := by
  have space : isWhiteSpace q = false := by
    rcases hq with rfl | rfl <;> decide
  refine spells_of_lexeme? space ?_
  rw [lexeme?_quote hq]
  exact quotedLexeme?_eq_some_iff.2 ⟨body, [], rfl, h, by simp⟩

/-- The text of a literal is one token, which is read back to the literal. -/
theorem exists_spells_literal {l : Literal} (h : l.IsWritable) :
    ∃ kind, Spells l.text.toList [kind] ∧ Parser.IsLiteral kind l.text ∧
      Literal.ofText l.text = l := by
  cases l with
  | integer n =>
    refine ⟨.word (Literal.integer n).text, ?_, .word _, Literal.ofText_integer n⟩
    have := spells_number (n.toInt < 0) Nat.toDigits_ne_nil
      (fun c => Decimal.isDigit_of_mem_toDigits (n := n.toInt.natAbs)) (rfl : atWordEnd [] = true) rfl
    rw [List.append_nil, ← Literal.toList_toString, String.ofList_toList] at this
    exact this
  | float x =>
    cases x with
    | nan => exact False.elim h
    | signed negative m =>
      refine ⟨.word (Literal.float (.signed negative m)).text, ?_, .word _, Literal.ofText_float h⟩
      obtain ⟨whole, fraction, hpos, hwhole, hfraction, wholeDigits, fractionDigits, -⟩ :=
        (Decimal.shortest .up m).exists_positional
      have htext := Literal.toList_floatText negative h
      rw [hpos] at htext
      have hend : atWordEnd ('.' :: fraction) := by
        simp [atWordEnd, show isWordChar '.' = false by decide]
      have := spells_number negative hwhole wholeDigits hend
        (fractionOf_digits hfraction fun c hc => isDecimalDigit_of_isDigit (fractionDigits c hc))
      rw [← htext, String.ofList_toList] at this
      exact this
  | string s =>
    refine ⟨.quoted (Literal.string s).text, ?_, .quoted _, Literal.ofText_string s⟩
    obtain ⟨q, hq, hmem, htext⟩ := Literal.exists_toList_quote (Literal.isWritable_iff.1 h).2
    have := spells_quoted hq hmem
    rw [← htext, String.ofList_toList] at this
    exact this

/-! ## Conditions and trees -/

theorem startsApart_space (cs : List Char) : StartsApart (' ' :: cs) :=
  startsApart_cons.2 (goesOn_eq_false_of_isWhiteSpace (by decide))

theorem exists_spells_condition {c : Condition} (hfield : IsWord c.field)
    (hliteral : c.literal.IsWritable) :
    ∃ kind, Parser.IsLiteral kind c.literal.text ∧ Literal.ofText c.literal.text = c.literal ∧
      Spells c.text.toList [.word c.field, .comparator c.comparator, kind] := by
  obtain ⟨kind, hspells, hkind, hread⟩ := exists_spells_literal hliteral
  have comparison := (spells_symbol c.comparator).append (spells_space hspells) (startsApart_space _)
  have condition := hfield.spells.append (spells_space comparison) (startsApart_space _)
  exact ⟨kind, hkind, hread, by simpa [Condition.text] using condition⟩

/-- The tokens of a tree's text are a term of the grammar. Each level but the lowest stands in
parentheses of its own. -/
theorem exists_spells_tree {t : Tree} (fields : ∀ c ∈ t.conditions, IsWord c.field)
    (writable : t.IsWritable) :
    ∃ ks, Spells t.text.toList ks ∧ Parser.Derives .term ks t ∧
      ∀ opened, Parser.maxOpen opened ks + 1 = opened + t.depth := by
  induction t with
  | operand c =>
    have hmem : c ∈ (Tree.operand c).conditions := List.mem_singleton.2 rfl
    obtain ⟨kind, hkind, hread, hspells⟩ := exists_spells_condition (fields c hmem) (writable c hmem)
    refine ⟨_, hspells, ?_, fun opened => ?_⟩
    · have := Parser.Derives.condition c.field c.comparator hkind
      rwa [hread] at this
    · rw [Parser.maxOpen_condition opened c.field c.comparator hkind]
      rfl
  | operator k l r ihl ihr =>
    obtain ⟨fl, fr⟩ := Tree.forall_conditions_operator.1 fields
    obtain ⟨wl, wr⟩ := Tree.isWritable_operator.1 writable
    obtain ⟨ks, hks, dl, ml⟩ := ihl fl wl
    obtain ⟨ls, hls, dr, mr⟩ := ihr fr wr
    have joined : Parser.Derives .expression (ks ++ .combinator k :: ls) (.operator k l r) :=
      .more k (.first dl) dr
    refine ⟨_, ?_, joined.group, fun opened => ?_⟩
    · have last := hls.append spells_closeParen (startsApart_cons.2 (by decide))
      have right := (spells_keyword k).append (spells_space last) (startsApart_space _)
      have both := hks.append (spells_space right) (startsApart_space _)
      simpa [Tree.text] using spells_openParen both
    · have := ml (opened + 1)
      have := mr (opened + 1)
      rw [joined.maxOpen_group, (Parser.Derives.first dl).maxOpen_joined, Tree.depth]
      omega

end Token

/-! ## Compilation of a tree's text -/

theorem compile_of_tooLong {limits : Limits} {text : String}
    (h : limits.maxRuleLength.toNat < text.utf8ByteSize) :
    ∃ e, compile limits text = .error (.parse e) :=
  ⟨_, by rw [compile, tokensWithin, if_pos h]; rfl⟩

theorem compile_of_tokenize {limits : Limits} {text : String} {ts : List Token}
    (hlength : text.utf8ByteSize ≤ limits.maxRuleLength.toNat)
    (h : Token.tokenize text = .ok ts) : compile limits text = parse limits ts := by
  rw [compile, tokensWithin, if_neg (Nat.not_lt.2 hlength), h]
  rfl

/-- A tree written as text compiles to itself where the limits allow its height and its length, and
is a parse error where they do not. -/
theorem compile_text (limits : Limits) (t : Tree)
    (fields : ∀ c ∈ t.conditions, Token.IsWord c.field) (writable : t.IsWritable) :
    (t.depth - 1 ≤ limits.maxNestingDepth.toNat ∧
        t.text.utf8ByteSize ≤ limits.maxRuleLength.toNat →
      compile limits t.text = .ok t ∧ t.sameTree t) ∧
    (¬ (t.depth - 1 ≤ limits.maxNestingDepth.toNat ∧
        t.text.utf8ByteSize ≤ limits.maxRuleLength.toNat) →
      ∃ e, compile limits t.text = .error (.parse e)) := by
  obtain ⟨ks, ⟨ts, hts, rfl⟩, derived, levels⟩ := Token.exists_spells_tree fields writable
  have opened : Parser.maxOpen 0 (ts.map (·.kind)) = t.depth - 1 := by
    have := levels 0
    omega
  constructor
  · rintro ⟨hdepth, hlength⟩
    have accepted : Parser.Accepts limits.maxNestingDepth.toNat ts t :=
      ⟨.first derived, by rwa [opened]⟩
    rw [compile_of_tokenize hlength hts]
    exact ⟨parse_eq_ok_iff_accepts.2 accepted, Tree.sameTree_self writable⟩
  · intro exceeded
    rcases Nat.lt_or_ge limits.maxRuleLength.toNat t.text.utf8ByteSize with hlong | hlength
    · exact compile_of_tooLong hlong
    · rw [compile_of_tokenize hlength hts]
      refine exists_parse_error_of_ne_ok fun u hu => exceeded ⟨?_, hlength⟩
      rw [← opened]
      exact (parse_eq_ok_iff_accepts.1 hu).2

/-- A tree of height 3 with a string that holds a quote, where two parentheses may be open at once
and where only one may. -/
theorem compile_text_quote :
    let t : Tree := .operator .and (.operand ⟨"owner", .neq, .string "O'Hara"⟩)
      (.operator .or (.operand ⟨"age", .gteq, .integer (-5)⟩)
        (.operand ⟨"rate", .lt, .float (.signed true (.nearest 5 2))⟩))
    (compile { maxNestingDepth := 2 } t.text = .ok t ∧ t.sameTree t) ∧
      ∃ e, compile { maxNestingDepth := 1 } t.text = .error (.parse e) := by
  intro t
  have fields : ∀ c ∈ t.conditions, Token.IsWord c.field := by decide +kernel
  have writable : t.IsWritable := by decide +kernel
  have length : t.text.utf8ByteSize ≤ 65536 := by decide +kernel
  exact ⟨(compile_text _ t fields writable).1 ⟨by decide, length⟩,
    (compile_text _ t fields writable).2 (by decide +kernel)⟩

end RecordRules
