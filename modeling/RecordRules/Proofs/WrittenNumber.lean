import RecordRules.Json.Printer
import RecordRules.Json.Reader
import RecordRules.Proofs.LiteralText

/-!
# JSON numbers read from their text

A written number has the parts of the grammar: a sign, digits without a zero in front, and perhaps a
fraction and a power of ten. They are read as they are written. The number that they make is the
same for an integer; for a fraction it is another rounding, which can miss.
-/

namespace RecordRules.Json

/-- A text that goes on no number before it. -/
def EndsNumber (rest : List Char) : Prop :=
  ∀ c ∈ rest.head?, c.isDigit = false ∧ c ∉ ['.', 'e', 'E']

namespace NumberText

def fractionChars : Option (List Char) → List Char
  | some digits => '.' :: digits
  | none => []

def exponentChars : Option Int → List Char
  | some e => 'e' :: (if e < 0 then '-' else '+') :: Nat.toDigits 10 e.natAbs
  | none => []

/-- The parts of a number one after the other. -/
def chars (t : NumberText) : List Char :=
  Literal.signChars t.negative ++
    (t.whole ++ (fractionChars t.fraction ++ exponentChars t.exponent))

/-- Parts that the grammar admits. -/
structure IsGrammatical (t : NumberText) : Prop where
  ne_nil : t.whole ≠ []
  digits : ∀ c ∈ t.whole, c.isDigit
  noZeroInFront : t.whole = ['0'] ∨ t.whole.head? ≠ some '0'
  fraction : ∀ fraction ∈ t.fraction, fraction ≠ [] ∧ ∀ c ∈ fraction, c.isDigit

end NumberText

/-! ## Digits without a zero in front -/

theorem digitChar_ne_zero {n : Nat} (hn : n ≠ 0) (h : n < 10) : Nat.digitChar n ≠ '0' := by
  have all : ∀ n < 10, n ≠ 0 → Nat.digitChar n ≠ '0' := by decide
  exact all n h hn

theorem head?_toDigits {n : Nat} (hn : n ≠ 0) : (Nat.toDigits 10 n).head? ≠ some '0' := by
  induction n using Nat.strongRecOn with
  | _ n ih =>
    rw [Nat.toDigits_eq_if (by decide)]
    by_cases h : n < 10
    · rw [if_pos h]
      simpa using digitChar_ne_zero hn h
    · have hhead := ih (n / 10) (by omega) (by omega)
      have hne : Nat.toDigits 10 (n / 10) ≠ [] := Nat.toDigits_ne_nil
      obtain ⟨c, cs, hcs⟩ := List.exists_cons_of_ne_nil hne
      rw [if_neg h, hcs]
      rw [hcs] at hhead
      exact hhead

theorem noZeroInFront_toDigits (n : Nat) :
    Nat.toDigits 10 n = ['0'] ∨ (Nat.toDigits 10 n).head? ≠ some '0' := by
  by_cases hn : n = 0
  · exact .inl (by rw [hn, Nat.toDigits_zero])
  · exact .inr (head?_toDigits hn)

theorem signed_natAbs (n : Int) : (if decide (n < 0) then -(n.natAbs : Int) else n.natAbs) = n := by
  by_cases h : n < 0
  · rw [decide_eq_true h, if_pos rfl]
    omega
  · rw [decide_eq_false h, if_neg Bool.false_ne_true]
    omega

/-! ## Parts of a number -/

namespace Reader

open NumberText (fractionChars exponentChars)

theorem digits?_append {digits rest : List Char} (hne : digits ≠ [])
    (hdigits : ∀ c ∈ digits, c.isDigit) (stop : ∀ c ∈ rest.head?, c.isDigit = false) :
    digits? (digits ++ rest) = some (digits, rest) := by
  have taken : rest.takeWhile Char.isDigit = [] ∧ rest.dropWhile Char.isDigit = rest := by
    cases rest with
    | nil => exact ⟨rfl, rfl⟩
    | cons c rest => simp [stop c rfl]
  have span : (digits ++ rest).span Char.isDigit = (digits, rest) := by
    rw [List.span_eq_takeWhile_dropWhile, List.takeWhile_append_of_pos hdigits,
      List.dropWhile_append_of_pos hdigits, taken.1, taken.2, List.append_nil]
  unfold digits?
  rw [span]
  cases digits with
  | nil => exact absurd rfl hne
  | cons c digits => rfl

theorem whole?_append {whole rest : List Char} (hne : whole ≠ [])
    (hdigits : ∀ c ∈ whole, c.isDigit) (zero : whole = ['0'] ∨ whole.head? ≠ some '0')
    (stop : ∀ c ∈ rest.head?, c.isDigit = false) :
    whole? (whole ++ rest) = some (whole, rest) := by
  rcases zero with rfl | hhead
  · rfl
  · rw [← digits?_append hne hdigits stop]
    unfold whole?
    split
    · rename_i heq
      obtain ⟨c, digits, rfl⟩ := List.exists_cons_of_ne_nil hne
      obtain ⟨rfl, -⟩ := List.cons.inj heq
      exact absurd rfl hhead
    · rfl

/-- A fraction is read up to what is no digit and no point. -/
theorem fraction?_fractionChars {fraction : Option (List Char)}
    (hdigits : ∀ digits ∈ fraction, digits ≠ [] ∧ ∀ c ∈ digits, c.isDigit) {after : List Char}
    (stop : ∀ c ∈ after.head?, c.isDigit = false ∧ c ≠ '.') :
    fraction? (fractionChars fraction ++ after) = some (fraction, after) := by
  cases fraction with
  | none =>
    unfold fraction?
    split
    · rename_i heq
      rw [fractionChars, List.nil_append] at heq
      subst heq
      exact absurd rfl (stop '.' rfl).2
    · rfl
  | some digits =>
    obtain ⟨hne, hdigit⟩ := hdigits digits rfl
    have read := digits?_append hne hdigit fun c hc => (stop c hc).1
    simp [fractionChars, fraction?, read]

section
variable {rest : List Char} (hrest : EndsNumber rest)
include hrest

theorem head?_exponentChars (e : Option Int) :
    ∀ c ∈ (exponentChars e ++ rest).head?, c.isDigit = false ∧ c ≠ '.' := by
  intro c hc
  cases e with
  | none =>
    obtain ⟨hdigit, hmark⟩ := hrest c hc
    exact ⟨hdigit, fun hpoint => hmark (by simp [hpoint])⟩
  | some e =>
    obtain rfl : 'e' = c := by simpa [exponentChars] using hc
    exact ⟨by decide, by decide⟩

theorem head?_fractionChars (fraction : Option (List Char)) (e : Option Int) :
    ∀ c ∈ (fractionChars fraction ++ (exponentChars e ++ rest)).head?, c.isDigit = false := by
  intro c hc
  cases fraction with
  | none => exact (head?_exponentChars hrest e c hc).1
  | some digits =>
    obtain rfl : '.' = c := by simpa [fractionChars] using hc
    decide

theorem fraction?_append {fraction : Option (List Char)}
    (hdigits : ∀ digits ∈ fraction, digits ≠ [] ∧ ∀ c ∈ digits, c.isDigit) (e : Option Int) :
    fraction? (fractionChars fraction ++ (exponentChars e ++ rest)) =
      some (fraction, exponentChars e ++ rest) :=
  fraction?_fractionChars hdigits (head?_exponentChars hrest e)

theorem exponent?_append (e : Option Int) :
    exponent? (exponentChars e ++ rest) = some (e, rest) := by
  cases e with
  | none =>
    cases rest with
    | nil => rfl
    | cons c rest =>
      have hmark := (hrest c rfl).2
      have : ¬ (c = 'e' ∨ c = 'E') := by
        rintro (rfl | rfl) <;> simp at hmark
      simp [exponentChars, exponent?, this]
  | some e =>
    have read := digits?_append Nat.toDigits_ne_nil
      (fun c => Decimal.isDigit_of_mem_toDigits (n := e.natAbs)) fun c hc => (hrest c hc).1
    have parts : exponentChars (some e) ++ rest =
        'e' :: (if e < 0 then '-' else '+') :: (Nat.toDigits 10 e.natAbs ++ rest) := rfl
    have sign (cs : List Char) :
        Decimal.takeSign ((if e < 0 then '-' else '+') :: cs) = (decide (e < 0), cs) := by
      by_cases he : e < 0
      · rw [if_pos he, decide_eq_true he]
        rfl
      · rw [if_neg he, decide_eq_false he]
        rfl
    rw [parts, exponent?, if_pos (.inl rfl), sign]
    simp only [read, Option.map_some, Nat.ofDigitChars_ten_toDigits, signed_natAbs]

/-- Grammatical parts are read as they are written. -/
theorem number?_chars {t : NumberText} (h : t.IsGrammatical) :
    number? (t.chars ++ rest) = some (t, rest) := by
  have sign := Literal.takeMinus_signed t.negative h.ne_nil h.digits
    (fractionChars t.fraction ++ (exponentChars t.exponent ++ rest))
  have whole := whole?_append h.ne_nil h.digits h.noZeroInFront
    (head?_fractionChars hrest t.fraction t.exponent)
  have fraction := fraction?_append hrest h.fraction t.exponent
  have exponent := exponent?_append hrest t.exponent
  have parts : t.chars ++ rest = Literal.signChars t.negative ++
      (t.whole ++ (fractionChars t.fraction ++ (exponentChars t.exponent ++ rest))) := by
    simp only [NumberText.chars, List.append_assoc]
  rw [parts, number?, sign]
  simp [whole, fraction, exponent]

end

end Reader

/-! ## What is printed -/

namespace NumberText

/-- The decimal number that the parts say. -/
def value (t : NumberText) : Decimal :=
  ⟨Nat.ofDigitChars 10 (t.whole ++ t.fraction.getD []) 0,
    t.exponent.getD 0 - (t.fraction.getD []).length⟩

/-- Parts of a number that is no integer, with its sign and its magnitude. -/
structure Spells (t : NumberText) (negative : Bool) (m : Magnitude) : Prop where
  grammatical : t.IsGrammatical
  noInteger : t.integer? = none
  sign : t.negative = negative
  magnitude : t.value.toMagnitude = m

theorem whole_of_positional {d : Decimal} {whole fraction : List Char}
    (h : d.positional = whole ++ '.' :: fraction) (digits : ∀ c ∈ whole, c.isDigit) :
    ∃ n, whole = Nat.toDigits 10 n := by
  have layout : ∃ n rest, d.positional = Nat.toDigits 10 n ++ '.' :: rest := ⟨_, _, rfl⟩
  obtain ⟨n, rest, hlayout⟩ := layout
  rw [h] at hlayout
  have first := congrArg (List.takeWhile Char.isDigit) hlayout
  rw [List.takeWhile_append_of_pos digits,
    List.takeWhile_append_of_pos fun c => Decimal.isDigit_of_mem_toDigits] at first
  exact ⟨n, by simpa using first⟩

theorem exists_spells_positional (negative : Bool) (d : Decimal) :
    ∃ t : NumberText, t.chars = Literal.signChars negative ++ d.positional ∧
      t.Spells negative d.toMagnitude := by
  obtain ⟨whole, fraction, hpos, hne, hne', hwhole, hfraction, hvalue⟩ := d.exists_positional
  obtain ⟨n, hn⟩ := whole_of_positional hpos hwhole
  refine ⟨⟨negative, whole, some fraction, none⟩, ?_, ⟨hne, hwhole, ?_, ?_⟩, rfl, rfl, ?_⟩
  · simp [chars, fractionChars, exponentChars, hpos]
  · rw [hn]
    exact noZeroInFront_toDigits n
  · intro digits hdigits
    obtain rfl : fraction = digits := by simpa using hdigits
    exact ⟨hne', hfraction⟩
  · rw [← hvalue]
    simp [value, Decimal.ofPointed]

/-! ## Powers of ten -/

theorem trimZeros_toDigits {n : Nat} (hn : n ≠ 0) :
    ∃ c rest zeros, Decimal.trimZeros (Nat.toDigits 10 n) = c :: rest ∧ c ≠ '0' ∧
      (∀ d ∈ c :: rest, d.isDigit) ∧
      Nat.toDigits 10 n = c :: rest ++ List.replicate zeros '0' := by
  obtain ⟨zeros, hzeros⟩ := Decimal.exists_trimZeros_append (Nat.toDigits 10 n)
  have hhead := head?_toDigits hn
  have hdigits : ∀ d ∈ Decimal.trimZeros (Nat.toDigits 10 n), d.isDigit := fun d hd =>
    Decimal.isDigit_of_mem_toDigits (Decimal.mem_of_mem_trimZeros hd)
  generalize Decimal.trimZeros (Nat.toDigits 10 n) = trimmed at hzeros hdigits
  rw [hzeros] at hhead
  cases trimmed with
  | nil =>
    have hne : Nat.toDigits 10 n ≠ [] := Nat.toDigits_ne_nil
    rw [hzeros] at hne
    cases zeros with
    | zero => exact absurd rfl hne
    | succ zeros => exact absurd rfl hhead
  | cons c rest =>
    refine ⟨c, rest, zeros, rfl, ?_, hdigits, hzeros⟩
    rintro rfl
    exact hhead rfl

theorem toMagnitude_of_digits_eq_zero {d : Decimal} (h : d.digits = 0) :
    d.toMagnitude = .ofNat 0 := by
  rw [Decimal.toMagnitude_eq_nearest, h]
  exact Magnitude.nearest_eq_of_mul_eq (Nat.pow_pos (by decide)) Nat.one_pos (by simp)

/-- Zeros at the end of the digits are as many tens. -/
theorem toMagnitude_mul_pow (digits zeros : Nat) (e : Int) :
    (Decimal.mk (digits * 10 ^ zeros) e).toMagnitude =
      (Decimal.mk digits (e + zeros)).toMagnitude := by
  rw [Decimal.toMagnitude_eq_nearest, Decimal.toMagnitude_eq_nearest]
  refine Magnitude.nearest_eq_of_mul_eq (Nat.pow_pos (by decide)) (Nat.pow_pos (by decide)) ?_
  have powers : zeros + e.toNat + (-(e + zeros)).toNat = (e + zeros).toNat + (-e).toNat := by omega
  rw [Nat.mul_assoc, Nat.mul_assoc, Nat.mul_assoc, ← Nat.pow_add, ← Nat.pow_add, ← Nat.pow_add,
    ← Nat.add_assoc, powers]

theorem exists_spells_scientific (negative : Bool) {d : Decimal} (hd : d.digits ≠ 0) :
    ∃ t : NumberText, t.chars = Literal.signChars negative ++ d.scientific ∧
      t.Spells negative d.toMagnitude := by
  obtain ⟨c, rest, zeros, htrim, hc, hdigits, hall⟩ := trimZeros_toDigits hd
  have hvalue : d.digits = Nat.ofDigitChars 10 (c :: rest) 0 * 10 ^ zeros := by
    have := Nat.ofDigitChars_ten_toDigits (n := d.digits)
    rw [hall, Nat.ofDigitChars_append, Nat.ofDigitChars_replicate_zero, Nat.mul_comm] at this
    exact this.symm
  have hexponent : d.leadingExponent = d.exponent + zeros + rest.length := by
    rw [Decimal.leadingExponent, hall]
    simp only [List.length_append, List.length_cons, List.length_replicate]
    omega
  refine ⟨⟨negative, [c], if rest = [] then none else some rest, some d.leadingExponent⟩, ?_,
    ⟨List.cons_ne_nil c [], ?_, ?_, ?_⟩, ?_, rfl, ?_⟩
  · cases rest with
    | nil => simp [chars, fractionChars, exponentChars, Decimal.scientific, htrim]
    | cons c' rest => simp [chars, fractionChars, exponentChars, Decimal.scientific, htrim]
  · intro b hb
    exact hdigits b (List.mem_cons.2 (.inl (List.mem_singleton.1 hb)))
  · exact .inr (by simpa using hc)
  · intro digits hdigits'
    obtain ⟨hne, rfl⟩ : rest ≠ [] ∧ rest = digits := by simpa using hdigits'
    exact ⟨hne, fun b hb => hdigits b (List.mem_cons_of_mem c hb)⟩
  · simp [integer?]
  · have hfraction : (if rest = [] then none else some rest).getD [] = rest := by
      split <;> simp [*]
    rw [value, hfraction, hexponent]
    change (Decimal.mk (Nat.ofDigitChars 10 (c :: rest) 0) _).toMagnitude = _
    have hshift : d.exponent + zeros + rest.length - rest.length = d.exponent + zeros := by omega
    rw [Option.getD_some, hshift, ← toMagnitude_mul_pow, ← hvalue]

end NumberText

/-! ## Numbers -/

namespace Number

open NumberText (Spells)

theorem digits_ne_zero {m : Magnitude} (h : m.IsFinite)
    (hfar : ¬ (-5 ≤ (Decimal.shortest .toEven m).leadingExponent ∧
      (Decimal.shortest .toEven m).leadingExponent ≤ 15)) :
    (Decimal.shortest .toEven m).digits ≠ 0 := by
  intro hzero
  have hm : m.val = 0 := by
    rw [← Decimal.shortest_toMagnitude .toEven h, NumberText.toMagnitude_of_digits_eq_zero hzero]
    decide +kernel
  -- The text of zero has a point.
  apply hfar
  unfold Decimal.shortest
  rw [if_pos hm]
  decide

theorem exists_spells_float {negative : Bool} {m : Magnitude}
    (h : (Binary64.signed negative m).IsFinite) :
    ∃ t : NumberText, (float (.signed negative m) h).text.toList = t.chars ∧
      t.Spells negative m := by
  have hvalue := Decimal.shortest_toMagnitude .toEven h
  have htext : (float (.signed negative m) h).text.toList =
      Literal.signChars negative ++ (magnitudeText m).toList := by
    cases negative <;> simp [text, Literal.signChars]
  rw [htext, magnitudeText, String.toList_ofList]
  split
  · obtain ⟨t, hchars, hspells⟩ :=
      NumberText.exists_spells_positional negative (Decimal.shortest .toEven m)
    rw [hvalue] at hspells
    exact ⟨t, hchars.symm, hspells⟩
  · rename_i hfar
    obtain ⟨t, hchars, hspells⟩ :=
      NumberText.exists_spells_scientific negative (digits_ne_zero h hfar)
    rw [hvalue] at hspells
    exact ⟨t, hchars.symm, hspells⟩

theorem exists_parts_integer (n : Int) (low : Int64.minValue.toInt ≤ n) (high : n < UInt64.size) :
    ∃ t : NumberText, (integer n low high).text.toList = t.chars ∧ t.IsGrammatical ∧
      t.toNumber? = some (integer n low high) := by
  refine ⟨⟨n < 0, Nat.toDigits 10 n.natAbs, none, none⟩, ?_, ⟨Nat.toDigits_ne_nil,
    fun c => Decimal.isDigit_of_mem_toDigits, noZeroInFront_toDigits _, fun _ h => nomatch h⟩, ?_⟩
  · rw [text, Literal.toList_toString]
    simp [NumberText.chars, NumberText.fractionChars, NumberText.exponentChars]
  · have sign : (decide (n < 0) && decide ((n.natAbs : Int) = 0)) = false := by
      by_cases hn : n < 0
      · have : (n.natAbs : Int) ≠ 0 := by omega
        rw [decide_eq_false this, Bool.and_false]
      · rw [decide_eq_false hn, Bool.false_and]
    have whole : NumberText.integer? ⟨n < 0, Nat.toDigits 10 n.natAbs, none, none⟩ = some n := by
      simp only [NumberText.integer?, Nat.ofDigitChars_ten_toDigits, sign, signed_natAbs]
      rfl
    have hint : ofInt? n = some (integer n low high) := dif_pos ⟨low, high⟩
    rw [NumberText.toNumber?, whole, Option.bind_some, hint]

theorem exists_parts (n : Number) :
    ∃ t : NumberText, n.text.toList = t.chars ∧ t.IsGrammatical := by
  match n with
  | integer n low high =>
    obtain ⟨t, htext, hgrammatical, -⟩ := exists_parts_integer n low high
    exact ⟨t, htext, hgrammatical⟩
  | float (.signed negative m) h =>
    obtain ⟨t, htext, hspells⟩ := exists_spells_float h
    exact ⟨t, htext, hspells.grammatical⟩

/-! ## Numbers read again -/

/-- The number that is read from the text of a number, if one is. -/
def reread? (n : Number) : Option Number :=
  (Reader.number? n.text.toList).bind fun (t, _) => t.toNumber?

theorem number?_of_chars {n : Number} {t : NumberText} (htext : n.text.toList = t.chars)
    (h : t.IsGrammatical) : Reader.number? n.text.toList = some (t, []) := by
  have endless : EndsNumber [] := fun _ h => nomatch h
  have read := Reader.number?_chars endless h
  rwa [List.append_nil, ← htext] at read

theorem reread?_of_number? {n : Number} {t : NumberText} {rest : List Char}
    (h : Reader.number? n.text.toList = some (t, rest)) : n.reread? = t.toNumber? := by
  rw [reread?, h]
  rfl

theorem number?_text (n : Number) {rest : List Char} (hrest : EndsNumber rest) :
    ∃ t, Reader.number? (n.text.toList ++ rest) = some (t, rest) ∧ t.toNumber? = n.reread? := by
  obtain ⟨t, htext, hgrammatical⟩ := n.exists_parts
  refine ⟨t, ?_, (reread?_of_number? (number?_of_chars htext hgrammatical)).symm⟩
  rw [htext]
  exact Reader.number?_chars hrest hgrammatical

theorem head_text (n : Number) :
    ∃ c cs, n.text.toList = c :: cs ∧ (c = '-' ∨ c.isDigit) := by
  obtain ⟨t, htext, h⟩ := n.exists_parts
  rw [htext]
  exact Literal.exists_signed_eq_cons t.negative h.ne_nil h.digits _

theorem reread?_integer (n : Int) (low : Int64.minValue.toInt ≤ n) (high : n < UInt64.size) :
    (integer n low high).reread? = some (integer n low high) := by
  obtain ⟨t, htext, hgrammatical, hnumber⟩ := exists_parts_integer n low high
  rw [reread?_of_number? (number?_of_chars htext hgrammatical), hnumber]

/-- A float comes back as a float of its sign, or not at all if it is read as one too large. -/
theorem reread?_float {negative : Bool} {m : Magnitude}
    (h : (Binary64.signed negative m).IsFinite) :
    ∃ t : NumberText, Reader.number? (float (.signed negative m) h).text.toList = some (t, []) ∧
      t.Spells negative m ∧ (float (.signed negative m) h).reread? =
        (NumberText.magnitude? t.toDecimal).bind fun m' => ofBinary64? (.signed negative m') := by
  obtain ⟨t, htext, hspells⟩ := exists_spells_float h
  have read := number?_of_chars htext hspells.grammatical
  refine ⟨t, read, hspells, ?_⟩
  rw [reread?_of_number? read, NumberText.toNumber?, hspells.noInteger, hspells.sign]
  rfl

end Number

end RecordRules.Json
