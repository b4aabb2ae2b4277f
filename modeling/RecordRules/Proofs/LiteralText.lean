import Mathlib.Data.List.TakeDrop
import RecordRules.Proofs.Positional
import RecordRules.Proofs.Writable

/-!
# Literals read from their text

A text that starts with a digit or a minus sign is in no quotes, so digits are read as a number; a
string stands in quotes of a kind that it does not end too early.
-/

namespace RecordRules

namespace Literal

def signChars (negative : Bool) : List Char := if negative then ['-'] else []

theorem toList_toString (n : Int) :
    (toString n).toList = signChars (n < 0) ++ Nat.toDigits 10 n.natAbs := by
  cases n with
  | ofNat n => simp [signChars, toString, Int.repr]
  | negSucc n => simp [signChars, toString, Int.repr]

theorem toList_floatText (negative : Bool) {m : Magnitude} (h : m.IsFinite) :
    (floatText (.signed negative m)).toList =
      signChars negative ++ (Decimal.shortest .up m).positional := by
  cases negative <;> simp [floatText, signChars, h]

/-! ## Numbers -/

theorem unquotedBy?_eq_none {q c : Char} (h : c ≠ q) (cs : List Char) :
    unquotedBy? q (c :: cs) = none := by
  simp [unquotedBy?, h]

theorem eq_of_takeMinus {cs rest : List Char} {negative : Bool}
    (h : Decimal.takeMinus cs = (negative, rest)) : cs = signChars negative ++ rest := by
  unfold Decimal.takeMinus at h
  split at h <;> cases h <;> rfl

section
variable (negative : Bool) {whole : List Char} (hne : whole ≠ []) (hwhole : ∀ c ∈ whole, c.isDigit)
include hne hwhole

theorem exists_signed_eq_cons (rest : List Char) :
    ∃ c cs, signChars negative ++ (whole ++ rest) = c :: cs ∧ (c = '-' ∨ c.isDigit) := by
  cases negative with
  | true => exact ⟨'-', whole ++ rest, rfl, .inl rfl⟩
  | false =>
    obtain ⟨c, cs, rfl⟩ := List.exists_cons_of_ne_nil hne
    exact ⟨c, cs ++ rest, rfl, .inr (hwhole c List.mem_cons_self)⟩

theorem unquoted?_signed (rest : List Char) :
    unquoted? (signChars negative ++ (whole ++ rest)) = none := by
  obtain ⟨c, cs, h, hc⟩ := exists_signed_eq_cons negative hne hwhole rest
  have single : c ≠ '\'' := by rintro rfl; simp at hc
  have double : c ≠ '"' := by rintro rfl; simp at hc
  rw [h, unquoted?, unquotedBy?_eq_none single, unquotedBy?_eq_none double]
  rfl

theorem takeMinus_signed (rest : List Char) :
    Decimal.takeMinus (signChars negative ++ (whole ++ rest)) = (negative, whole ++ rest) := by
  cases negative with
  | true => rfl
  | false =>
    obtain ⟨c, cs, rfl⟩ := List.exists_cons_of_ne_nil hne
    have hc : c ≠ '-' := fun h => by simpa [h] using hwhole c List.mem_cons_self
    simp only [signChars, List.cons_append, Bool.false_eq_true, if_false, List.nil_append]
    unfold Decimal.takeMinus
    split
    · rename_i heq
      exact absurd (List.cons.inj heq).1 hc
    · rfl

theorem ofChars_whole : ofChars (signChars negative ++ whole) = ofWhole negative whole := by
  have hminus := takeMinus_signed negative hne hwhole []
  have hquote := unquoted?_signed negative hne hwhole []
  rw [List.append_nil] at hminus hquote
  have hall : whole.all Char.isDigit := List.all_eq_true.2 hwhole
  simp [ofChars, hquote, hminus, hne, hall]

theorem ofChars_pointed {fraction : List Char} (hfraction : ∀ c ∈ fraction, c.isDigit) :
    ofChars (signChars negative ++ (whole ++ '.' :: fraction)) =
      ofPointed negative whole fraction := by
  have hminus := takeMinus_signed negative hne hwhole ('.' :: fraction)
  have hquote := unquoted?_signed negative hne hwhole ('.' :: fraction)
  have notWhole : (whole ++ '.' :: fraction).all Char.isDigit = false := by simp
  have hpointed : pointed? (whole ++ '.' :: fraction) = some (whole, fraction) := by
    have hspan : (whole ++ '.' :: fraction).span Char.isDigit = (whole, '.' :: fraction) := by
      rw [List.span_eq_takeWhile_dropWhile, List.takeWhile_append_of_pos hwhole,
        List.dropWhile_append_of_pos hwhole]
      simp
    rw [pointed?, hspan]
    simpa [hne] using hfraction
  simp [ofChars, hquote, hminus, notWhole, hpointed]

end

theorem ofWhole_toDigits (n : Int64) :
    ofWhole (n.toInt < 0) (Nat.toDigits 10 n.toInt.natAbs) = integer n := by
  have signed : (if decide (n.toInt < 0) then -(n.toInt.natAbs : Int) else n.toInt.natAbs) =
      n.toInt := by
    by_cases h : n.toInt < 0
    · simp only [h, decide_true, if_true]
      omega
    · simp only [h, decide_false, Bool.false_eq_true, if_false]
      omega
  have range : Int64.minValue.toInt ≤ n.toInt ∧ n.toInt ≤ Int64.maxValue.toInt :=
    ⟨n.minValue_le_toInt, n.toInt_le⟩
  simp only [ofWhole, Nat.ofDigitChars_ten_toDigits, signed, if_pos range, Int64.ofInt_toInt]

theorem ofText_integer (n : Int64) : ofText (integer n).text = integer n := by
  rw [ofText, text, toList_toString, ofChars_whole _ Nat.toDigits_ne_nil
    fun c => Decimal.isDigit_of_mem_toDigits, ofWhole_toDigits]

theorem ofText_float {x : Binary64} (h : x.IsFinite) : ofText (float x).text = float x := by
  cases x with
  | nan => exact h.elim
  | signed negative m =>
    obtain ⟨whole, fraction, hpos, hne, -, hwhole, hfraction, hvalue⟩ :=
      (Decimal.shortest .up m).exists_positional
    rw [ofText, text, toList_floatText negative h, hpos, ofChars_pointed negative hne hwhole hfraction,
      ofPointed, hvalue, Decimal.shortest_toMagnitude .up h]

/-! ## Strings -/

theorem unquotedBy?_quoted (q : Char) (cs : List Char) :
    unquotedBy? q (q :: (cs ++ [q])) = some cs := by
  simp [unquotedBy?]

/-- A string is put in quotes that it does not hold, if there are any. -/
theorem exists_toList_quote {s : String} (h : (string s).mixesQuotes = false) :
    ∃ q, (q = '\'' ∨ q = '"') ∧ q ∉ s.toList ∧ (quote s).toList = q :: (s.toList ++ [q]) := by
  by_cases hsingle : '\'' ∈ s.toList
  · have hdouble : '"' ∉ s.toList := by simpa [mixesQuotes, hsingle] using h
    exact ⟨'"', .inr rfl, hdouble, by simp [quote, hsingle]⟩
  · exact ⟨'\'', .inl rfl, hsingle, by simp [quote, hsingle]⟩

theorem ofText_string (s : String) : ofText (string s).text = string s := by
  have hread : unquoted? (quote s).toList = some s.toList := by
    unfold quote
    split
    · have hlist : ("\"" ++ s ++ "\"").toList = '"' :: (s.toList ++ ['"']) := by simp
      rw [hlist, unquoted?, unquotedBy?_eq_none (by decide), unquotedBy?_quoted]
      rfl
    · have hlist : ("'" ++ s ++ "'").toList = '\'' :: (s.toList ++ ['\'']) := by simp
      rw [hlist, unquoted?, unquotedBy?_quoted]
      rfl
  simp [ofText, text, ofChars, hread]

end Literal

end RecordRules
