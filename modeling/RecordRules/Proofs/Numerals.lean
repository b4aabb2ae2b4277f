import RecordRules.Proofs.CompiledFields
import RecordRules.Proofs.ScientificText
import RecordRules.Proofs.WholeNumbers

/-!
# Numerals

The lexer and the inference of literals each decide what a number is, the one by decimal digits of
any script and the other by ASCII digits. Main statement: of the words of a text just the numerals
are read as numbers, by value or as the nearest float, and nothing in quotes is.
-/

namespace RecordRules

open Json.NumberText (fractionChars)

namespace Literal

/-! ## Numerals -/

/-- ASCII digits on both sides of a point, with a minus sign if there is one. -/
inductive IsPointed : List Char → Prop
  | digits (negative : Bool) {whole fraction : List Char} (hne : whole ≠ [])
      (all : ∀ c ∈ whole, c.isDigit) (hne' : fraction ≠ []) (all' : ∀ c ∈ fraction, c.isDigit) :
      IsPointed (signChars negative ++ (whole ++ '.' :: fraction))

/-- What a bare word stands for. -/
inductive IsReadAs (x : String) : Literal → Prop
  | integer {m : Int64} (whole : IsWhole x.toList m.toInt) : IsReadAs x (integer m)
  | wide {n : Int} {v : Binary64} (whole : IsWhole x.toList n) (wide : ¬ FitsInt64 n)
      (parsed : Binary64.ofText? x = some v) : IsReadAs x (float v)
  | pointed {v : Binary64} (pointed : IsPointed x.toList) (parsed : Binary64.ofText? x = some v) :
      IsReadAs x (float v)
  | string (notWhole : ∀ n, ¬ IsWhole x.toList n) (notPointed : ¬ IsPointed x.toList) :
      IsReadAs x (string x)

/-- The literal of a text, where floats are left to a reader that may refuse them: what it refuses
stays a string. -/
def inferBy (read : String → Option Binary64) (text : String) : Literal :=
  let asFloat := match read text with
    | some x => float x
    | none => string text
  match unquoted? text.toList with
  | some inner => string (String.ofList inner)
  | none =>
    let (negative, digits) := Decimal.takeMinus text.toList
    if !digits.isEmpty && digits.all Char.isDigit then
      let n : Int := Nat.ofDigitChars 10 digits 0
      let n := if negative then -n else n
      if FitsInt64 n then integer (.ofInt n) else asFloat
    else if digits.count '.' = 1 && digits.any Char.isDigit &&
        digits.all (fun c => c = '.' || c.isDigit) then asFloat
    else string text

theorem pointed?_eq_some_iff {cs whole fraction : List Char} :
    pointed? cs = some (whole, fraction) ↔ cs = whole ++ '.' :: fraction ∧
      whole ++ fraction ≠ [] ∧ (∀ c ∈ whole, c.isDigit) ∧ ∀ c ∈ fraction, c.isDigit := by
  have parts := List.takeWhile_append_dropWhile (p := Char.isDigit) (l := cs)
  have digits : ∀ c ∈ cs.takeWhile Char.isDigit, c.isDigit := fun c hc =>
    List.all_eq_true.1 List.all_takeWhile c hc
  unfold pointed?
  rw [List.span_eq_takeWhile_dropWhile]
  constructor
  · intro h
    split at h
    · rename_i before after span
      obtain ⟨rfl, rest⟩ := Prod.mk.inj span
      rw [Option.ite_none_right_eq_some] at h
      obtain ⟨check, h⟩ := h
      cases h
      rw [rest] at parts
      have : (∀ c ∈ fraction, c.isDigit) ∧ ¬ cs.takeWhile Char.isDigit ++ fraction = [] := by
        simpa using check
      exact ⟨parts.symm, this.2, digits, this.1⟩
    · cases h
  · rintro ⟨rfl, hne, all, all'⟩
    have hall : fraction.all Char.isDigit := List.all_eq_true.2 all'
    have hnil : (whole ++ fraction).isEmpty = false := by simpa using hne
    have taken : (whole ++ '.' :: fraction).takeWhile Char.isDigit = whole := by
      rw [List.takeWhile_append_of_pos all]
      simp
    have left : (whole ++ '.' :: fraction).dropWhile Char.isDigit = '.' :: fraction := by
      rw [List.dropWhile_append_of_pos all]
      simp
    rw [taken, left]
    simp [hall, hnil]

theorem point_not_mem {cs : List Char} (h : ∀ c ∈ cs, c.isDigit) : '.' ∉ cs := by
  intro hpoint
  exact absurd (h _ hpoint) (by decide)

/-- One point among digits, of which there is one at least. -/
theorem isSome_pointed?_iff {cs : List Char} :
    (pointed? cs).isSome ↔
      (decide (cs.count '.' = 1) && cs.any Char.isDigit && cs.all fun c => c = '.' || c.isDigit) := by
  simp only [Bool.and_eq_true, decide_eq_true_eq, List.any_eq_true, List.all_eq_true,
    Bool.or_eq_true]
  constructor
  · intro h
    obtain ⟨⟨whole, fraction⟩, h⟩ := Option.isSome_iff_exists.1 h
    obtain ⟨rfl, hne, all, all'⟩ := pointed?_eq_some_iff.1 h
    obtain ⟨c, hc⟩ := List.exists_mem_of_ne_nil _ hne
    refine ⟨⟨?_, c, ?_, ?_⟩, fun d hd => ?_⟩
    · rw [List.count_append, List.count_cons_self, List.count_eq_zero.2 (point_not_mem all),
        List.count_eq_zero.2 (point_not_mem all')]
    · rcases List.mem_append.1 hc with hc | hc <;> simp [hc]
    · rcases List.mem_append.1 hc with hc | hc
      · exact all c hc
      · exact all' c hc
    · rcases List.mem_append.1 hd with hd | hd
      · exact .inr (all d hd)
      · rcases List.mem_cons.1 hd with rfl | hd
        · exact .inl rfl
        · exact .inr (all' d hd)
  · rintro ⟨⟨once, c, hc, digit⟩, only⟩
    have mem : '.' ∈ cs := List.count_pos_iff.1 (by omega)
    obtain ⟨whole, fraction, rfl⟩ := List.append_of_mem mem
    rw [List.count_append, List.count_cons_self] at once
    have noPoint : '.' ∉ whole ∧ '.' ∉ fraction :=
      ⟨List.count_eq_zero.1 (by omega), List.count_eq_zero.1 (by omega)⟩
    have digits : (∀ d ∈ whole, d.isDigit) ∧ ∀ d ∈ fraction, d.isDigit := by
      constructor
      · intro d hd
        exact (only d (by simp [hd])).resolve_left fun h => noPoint.1 (h ▸ hd)
      · intro d hd
        exact (only d (by simp [hd])).resolve_left fun h => noPoint.2 (h ▸ hd)
    have hne : whole ++ fraction ≠ [] := by
      intro hnil
      obtain ⟨rfl, rfl⟩ := List.append_eq_nil_iff.1 hnil
      obtain rfl : c = '.' := by simpa using hc
      exact absurd digit (by decide)
    rw [pointed?_eq_some_iff.2 ⟨rfl, hne, digits.1, digits.2⟩]
    rfl

/-- The reader of floats refuses no text that is left to it. -/
theorem inferBy_ofText? (text : String) : inferBy Binary64.ofText? text = ofText text := by
  unfold inferBy ofText ofChars
  cases unquoted? text.toList with
  | some inner => rfl
  | none =>
    dsimp only
    cases parts : Decimal.takeMinus text.toList with
    | mk negative digits =>
      have shown := congrArg String.ofList (eq_of_takeMinus parts)
      rw [String.ofList_toList] at shown
      dsimp only
      split
      · rename_i whole
        simp only [Bool.and_eq_true, Bool.not_eq_true', List.isEmpty_eq_false_iff,
          List.all_eq_true] at whole
        have read := Binary64.ofText?_signed negative none whole.2
          (by simp) (by simpa using whole.1)
        rw [fractionChars, List.append_nil, ← shown] at read
        rw [read, ofWhole]
        rfl
      · split
        · rename_i check
          obtain ⟨⟨whole, fraction⟩, point⟩ := Option.isSome_iff_exists.1 (isSome_pointed?_iff.2 check)
          obtain ⟨rfl, hne, all, all'⟩ := pointed?_eq_some_iff.1 point
          have read := Binary64.ofText?_signed negative (some fraction) all
            (fun digits h c hc => all' c (Option.some.inj h ▸ hc)) hne
          rw [fractionChars, ← shown] at read
          rw [read, point]
          rfl
        · rename_i check
          have none : pointed? digits = none := by
            rw [← Option.not_isSome_iff_eq_none, isSome_pointed?_iff]
            exact check
          rw [none, String.ofList_toList]

theorem ofText_of_isWhole {x : String} {n : Int} (h : IsWhole x.toList n) : ofText x = ofInt n :=
  h.ofChars_eq

theorem exists_parsed_of_isWhole {x : String} {n : Int} (h : IsWhole x.toList n)
    (wide : ¬ FitsInt64 n) :
    ∃ v, Binary64.ofText? x = some v ∧ ofText x = float v := by
  have shown := String.ofList_toList (s := x)
  rw [ofText]
  generalize x.toList = cs at h shown
  obtain ⟨negative, hne, all⟩ := h
  have read := Binary64.ofText?_signed negative none all (by simp)
    (by simpa using hne)
  rw [fractionChars, List.append_nil, shown] at read
  refine ⟨_, read, ?_⟩
  rw [ofChars_whole negative hne all, ofWhole]
  exact if_neg wide

theorem exists_parsed_of_isPointed {x : String} (h : IsPointed x.toList) :
    ∃ v, Binary64.ofText? x = some v ∧ ofText x = float v := by
  have shown := String.ofList_toList (s := x)
  rw [ofText]
  generalize x.toList = cs at h shown
  obtain @⟨negative, whole, fraction, hne, all, hne', all'⟩ := h
  have read := Binary64.ofText?_signed negative (some fraction) all
    (fun digits h c hc => all' c (Option.some.inj h ▸ hc)) (by simp [hne])
  rw [fractionChars, shown] at read
  exact ⟨_, read, ofChars_pointed negative hne all all'⟩

theorem ofText_of_no_numeral {x : String} (bare : unquoted? x.toList = none)
    (first : (Decimal.takeMinus x.toList).2.head? ≠ some '.')
    (last : x.toList.getLast? ≠ some '.') (whole : ¬ ∃ n, IsWhole x.toList n)
    (pointed : ¬ IsPointed x.toList) : ofText x = string x := by
  have shown := String.ofList_toList (s := x)
  rw [ofText, ofChars, bare]
  generalize x.toList = cs at *
  dsimp only
  cases parts : Decimal.takeMinus cs with
  | mk negative digits =>
    obtain rfl := eq_of_takeMinus parts
    rw [parts] at first
    dsimp only
    split
    · rename_i digit
      simp only [Bool.and_eq_true, Bool.not_eq_true', List.isEmpty_eq_false_iff,
        List.all_eq_true] at digit
      exact absurd ⟨_, .digits negative digit.1 digit.2⟩ whole
    · cases point : pointed? digits with
      | none => rw [shown]
      | some parts =>
        obtain ⟨before, after⟩ := parts
        obtain ⟨rfl, -, all, all'⟩ := pointed?_eq_some_iff.1 point
        have hne : before ≠ [] := by
          rintro rfl
          exact first rfl
        have hne' : after ≠ [] := by
          rintro rfl
          simp at last
        exact absurd (.digits negative hne all hne' all') pointed

/-- A text is read as a number just if it is a numeral, where a point stands at neither end. -/
theorem isReadAs_ofText {x : String} (bare : unquoted? x.toList = none)
    (first : (Decimal.takeMinus x.toList).2.head? ≠ some '.')
    (last : x.toList.getLast? ≠ some '.') : IsReadAs x (ofText x) := by
  by_cases whole : ∃ n, IsWhole x.toList n
  · obtain ⟨n, whole⟩ := whole
    by_cases fits : FitsInt64 n
    · have kept : (Int64.ofInt n).toInt = n := Int64.toInt_ofInt_of_le fits.1 (by
        have := Int64.maxValue.toInt_lt
        have := fits.2
        omega)
      rw [ofText_of_isWhole whole, ofInt, if_pos fits]
      exact .integer (kept.symm ▸ whole)
    · obtain ⟨v, parsed, hv⟩ := exists_parsed_of_isWhole whole fits
      exact hv ▸ .wide whole fits parsed
  by_cases pointed : IsPointed x.toList
  · obtain ⟨v, parsed, hv⟩ := exists_parsed_of_isPointed pointed
    exact hv ▸ .pointed pointed parsed
  rw [ofText_of_no_numeral bare first last whole pointed]
  exact .string (fun n hn => whole ⟨n, hn⟩) pointed

theorem isReadAs_iff {x : String} (bare : unquoted? x.toList = none)
    (first : (Decimal.takeMinus x.toList).2.head? ≠ some '.')
    (last : x.toList.getLast? ≠ some '.') {l : Literal} : IsReadAs x l ↔ l = ofText x := by
  constructor
  · intro h
    cases h with
    | @integer m whole =>
      have fits : FitsInt64 m.toInt := ⟨m.minValue_le_toInt, m.toInt_le⟩
      rw [ofText_of_isWhole whole, ofInt, if_pos fits, Int64.ofInt_toInt]
    | wide whole wide parsed =>
      obtain ⟨v, hv, h⟩ := exists_parsed_of_isWhole whole wide
      rw [h, Option.some.inj (parsed.symm.trans hv)]
    | pointed pointed parsed =>
      obtain ⟨v, hv, h⟩ := exists_parsed_of_isPointed pointed
      rw [h, Option.some.inj (parsed.symm.trans hv)]
    | string notWhole notPointed =>
      have read := isReadAs_ofText bare first last
      generalize ofText x = l at read
      cases read with
      | integer whole => exact absurd whole (notWhole _)
      | wide whole => exact absurd whole (notWhole _)
      | pointed pointed => exact absurd pointed notPointed
      | string => rfl
  · rintro rfl
    exact isReadAs_ofText bare first last

end Literal

/-! ## Tokens -/

namespace Token

open Text (isWordChar isDecimalDigit)

theorem IsUnsigned.head?_ne_point {cs : List Char} (h : IsUnsigned cs) : cs.head? ≠ some '.' := by
  obtain ⟨c, rest, rfl, digit⟩ := h.exists_cons
  rintro hpoint
  obtain rfl : c = '.' := Option.some.inj hpoint
  simp [isDecimalDigit_point] at digit

theorem getLast?_ne_point {cs : List Char} (h : ∀ c ∈ cs, isDecimalDigit c) :
    cs.getLast? ≠ some '.' := by
  intro hpoint
  have digit := h '.' (List.mem_of_getLast? hpoint)
  simp [isDecimalDigit_point] at digit

theorem IsUnsigned.getLast?_ne_point {cs : List Char} (h : IsUnsigned cs) :
    cs.getLast? ≠ some '.' := by
  cases h with
  | whole hne digits => exact Token.getLast?_ne_point digits
  | @pointed whole fraction hne digits hne' digits' =>
    obtain ⟨c, rest, rfl⟩ := List.exists_cons_of_ne_nil hne'
    rw [List.getLast?_append, List.getLast?_cons_cons]
    have last := Token.getLast?_ne_point digits'
    simpa using last

theorem IsUnsigned.not_minus {cs : List Char} (h : IsUnsigned cs) :
    Decimal.takeMinus cs = (false, cs) := by
  obtain ⟨c, rest, rfl, digit⟩ := h.exists_cons
  unfold Decimal.takeMinus
  split
  · rename_i minus
    obtain ⟨rfl, -⟩ := List.cons.inj minus
    exact absurd digit (by decide)
  · rfl

/-- A point of a bare word stands between digits. -/
theorem IsLexeme.point_inside {cs : List Char} {x : String} (h : IsLexeme cs (.word x)) :
    (Decimal.takeMinus cs).2.head? ≠ some '.' ∧ cs.getLast? ≠ some '.' := by
  generalize hkind : Kind.word x = kind at h
  cases h with
  | unsigned number =>
    rw [number.not_minus]
    exact ⟨number.head?_ne_point, number.getLast?_ne_point⟩
  | @negative digits number =>
    obtain ⟨c, rest, rfl, -⟩ := number.exists_cons
    refine ⟨number.head?_ne_point, ?_⟩
    rw [List.getLast?_cons_cons]
    exact number.getLast?_ne_point
  | word hne chars =>
    have noPoint : '.' ∉ cs := by
      intro hpoint
      have word := chars '.' hpoint
      simp [isWordChar_point] at word
    have behind : (Decimal.takeMinus cs).2 <:+ cs := by
      unfold Decimal.takeMinus
      split
      · exact List.suffix_cons ..
      · exact List.suffix_rfl
    constructor
    · intro hpoint
      exact noPoint (behind.subset (List.mem_of_head? hpoint))
    · intro hpoint
      exact noPoint (List.mem_of_getLast? hpoint)
  | pair listed =>
    subst hkind
    unfold pairKind? at listed
    split at listed <;> cases listed
  | sign listed =>
    subst hkind
    unfold signKind? at listed
    split at listed <;> cases listed
  | quoted quote inside => cases hkind

/-- A bare word starts with no quote, so it stands in none. -/
theorem IsLexeme.unquoted?_eq_none {cs : List Char} {x : String} (h : IsLexeme cs (.word x)) :
    Literal.unquoted? cs = none := by
  obtain ⟨c, rest, rfl, start⟩ := h.exists_word_start
  have single : c ≠ '\'' := by
    rintro rfl
    exact absurd start (by decide)
  have double : c ≠ '"' := by
    rintro rfl
    exact absurd start (by decide)
  rw [Literal.unquoted?, Literal.unquotedBy?_eq_none single, Literal.unquotedBy?_eq_none double]
  rfl

theorem IsLexeme.exists_body {cs : List Char} {x : String} (h : IsLexeme cs (.quoted x)) :
    ∃ q body, (q = '\'' ∨ q = '"') ∧ q ∉ body ∧ x = String.ofList (q :: body ++ [q]) := by
  generalize hkind : Kind.quoted x = kind at h
  cases h with
  | @quoted q body quote inside =>
    cases hkind
    exact ⟨q, body, quote, inside, rfl⟩
  | pair listed =>
    subst hkind
    unfold pairKind? at listed
    split at listed <;> cases listed
  | sign listed =>
    subst hkind
    unfold signKind? at listed
    split at listed <;> cases listed
  | unsigned number => cases hkind
  | negative number => cases hkind
  | word hne chars =>
    unfold wordKind at hkind
    dsimp only at hkind
    split at hkind <;> cases hkind

/-- **Numerals.** The lexer and the inference of literals agree on what a number is: a bare word is
a number just if it is a numeral, the reader of floats refuses none that is left to it, and a string
in quotes stays a string whatever it shows. -/
theorem literal_of_tokenize {text : String} {tokens : List Token} (h : tokenize text = .ok tokens)
    {t : Token} (ht : t ∈ tokens) :
    (∀ x, t.kind = .word x →
      (∀ l, Literal.ofText x = l ↔ Literal.IsReadAs x l) ∧
        Literal.inferBy Binary64.ofText? x = Literal.ofText x) ∧
    ∀ x, t.kind = .quoted x → ∃ q body, (q = '\'' ∨ q = '"') ∧ q ∉ body ∧
      x = String.ofList (q :: body ++ [q]) ∧
        Literal.ofText x = .string (String.ofList body) := by
  obtain ⟨lexeme, hlexeme⟩ := exists_isLexeme_of_tokenize h (List.mem_map_of_mem ht)
  constructor
  · intro x hx
    rw [hx] at hlexeme
    have shown : lexeme = x.toList := hlexeme.shows.resolve_right fun other => nomatch other.1
    subst shown
    obtain ⟨first, last⟩ := hlexeme.point_inside
    refine ⟨fun l => ?_, Literal.inferBy_ofText? x⟩
    rw [Literal.isReadAs_iff hlexeme.unquoted?_eq_none first last, eq_comm]
  · intro x hx
    rw [hx] at hlexeme
    obtain ⟨q, body, quote, inside, rfl⟩ := hlexeme.exists_body
    refine ⟨q, body, quote, inside, rfl, ?_⟩
    rw [Literal.ofText, String.toList_ofList, Literal.ofChars_quoted quote]

theorem literal_of_tokenize_least :
    Literal.ofText "-9223372036854775808" = .integer Int64.minValue ∧
      ∃ q body, (q = '\'' ∨ q = '"') ∧ q ∉ body ∧ "'12'" = String.ofList (q :: body ++ [q]) ∧
        Literal.ofText "'12'" = .string (String.ofList body) := by
  have read : tokenize "n > -9223372036854775808 OR n = '12'" = .ok [⟨.word "n", 0⟩,
      ⟨.comparator .gt, 2⟩, ⟨.word "-9223372036854775808", 4⟩, ⟨.combinator .or, 25⟩,
      ⟨.word "n", 28⟩, ⟨.comparator .eq, 30⟩, ⟨.quoted "'12'", 32⟩] :=
    eq_ok_of_toOption (by decide +kernel)
  have digits : "9223372036854775808".toList.all Char.isDigit := by decide
  have least : Literal.IsReadAs "-9223372036854775808" (.integer Int64.minValue) :=
    .integer (@Literal.IsWhole.digits true "9223372036854775808".toList (by decide)
      (List.all_eq_true.1 digits))
  exact ⟨(((literal_of_tokenize read (t := ⟨.word "-9223372036854775808", 4⟩) (by simp)).1
      _ rfl).1 _).2 least,
    (literal_of_tokenize read (t := ⟨.quoted "'12'", 32⟩) (by simp)).2 _ rfl⟩

end Token

end RecordRules
