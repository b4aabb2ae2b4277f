import RecordRules.Proofs.JoinedTexts
import RecordRules.Proofs.NearestOrder

/-!
# Rules about whole numbers

A whole number in a rule is kept exactly as long as 64 bits hold it, and compares exactly with every
whole number of a record. Beyond 64 bits it is the nearest float, so it compares as a float: exactly
too, but with a number of the record that has the same nearest float, of which it is an equal.
-/

namespace RecordRules

namespace Literal

/-! ## Whole numbers as literals -/

/-- Digits with a minus sign if there is one, and the whole number that they are. -/
inductive IsWhole : List Char → Int → Prop
  | digits (negative : Bool) {digits : List Char} (hne : digits ≠ [])
      (all : ∀ c ∈ digits, c.isDigit) :
      IsWhole (signChars negative ++ digits)
        (if negative then -(Nat.ofDigitChars 10 digits 0 : Int) else Nat.ofDigitChars 10 digits 0)

/-- A whole number that 64 bits hold. -/
def FitsInt64 (n : Int) : Prop := Int64.minValue.toInt ≤ n ∧ n ≤ Int64.maxValue.toInt

instance (n : Int) : Decidable (FitsInt64 n) := inferInstanceAs (Decidable (_ ∧ _))

/-- The literal of a whole number. -/
def ofInt (n : Int) : Literal := if FitsInt64 n then integer (.ofInt n) else float (.ofInt n)

theorem toMagnitude_whole (digits : List Char) :
    (Decimal.ofPointed digits []).toMagnitude = .ofNat (Nat.ofDigitChars 10 digits 0) := by
  simp [Decimal.toMagnitude_eq_nearest, Decimal.ofPointed, Magnitude.ofNat]

theorem signed_ofNat (negative : Bool) {n : Nat} (h : n ≠ 0) :
    Binary64.signed negative (.ofNat n) = .ofInt (if negative then -(n : Int) else n) := by
  have pos := Nat.pos_of_ne_zero h
  cases negative <;> simp [Binary64.ofInt, pos]

theorem ofWhole_eq_ofInt (negative : Bool) (digits : List Char) : ofWhole negative digits =
    ofInt (if negative then -(Nat.ofDigitChars 10 digits 0 : Int)
      else Nat.ofDigitChars 10 digits 0) := by
  rw [ofWhole, toMagnitude_whole]
  generalize Nat.ofDigitChars 10 digits 0 = n
  by_cases fits : FitsInt64 (if negative then -(n : Int) else n)
  · exact (if_pos fits).trans (if_pos fits).symm
  · -- Zero fits, so the sign of the float is the sign of the number.
    have nonzero : n ≠ 0 := by
      rintro rfl
      exact fits (by cases negative <;> decide)
    rw [signed_ofNat negative nonzero]
    exact (if_neg fits).trans (if_neg fits).symm

theorem IsWhole.ofChars_eq {cs : List Char} {n : Int} (h : IsWhole cs n) :
    ofChars cs = ofInt n := by
  obtain ⟨negative, hne, all⟩ := h
  rw [ofChars_whole negative hne all, ofWhole_eq_ofInt]

theorem IsWhole.spells {cs : List Char} {n : Int} (h : IsWhole cs n) :
    Token.Spells cs [.word (String.ofList cs)] := by
  obtain ⟨negative, hne, all⟩ := h
  have spelled := Token.spells_number negative hne all (rfl : Token.atWordEnd [] = true) rfl
  rwa [List.append_nil] at spelled

/-! ## Whole numbers of a record -/

section
variable (m : Int) (low : Int64.minValue.toInt ≤ m) (high : m < UInt64.size) {n : Int}

/-- A whole number of 64 bits in a rule compares exactly. -/
theorem compare?_ofInt_of_fits (fits : FitsInt64 n) :
    (ofInt n).compare? (.number (.integer m low high)) = some (compare m n) := by
  have kept : (Int64.ofInt n).toInt = n := Int64.toInt_ofInt_of_le fits.1 (by
    have := Int64.maxValue.toInt_lt
    have := fits.2
    omega)
  rw [ofInt, if_pos fits]
  rw [compare?, Json.Number.compareInteger_integer, kept]

/-- A wider one compares as a float. -/
theorem compare?_ofInt_of_wide (wide : ¬ FitsInt64 n) :
    (ofInt n).compare? (.number (.integer m low high)) =
      (Binary64.ofInt m).compare? (.ofInt n) := by
  rw [ofInt, if_neg wide]
  rfl

end

end Literal

/-! ## Texts of one condition -/

theorem Token.spells_of_ofSymbol? {symbol : String} {k : Comparator}
    (h : Comparator.ofSymbol? symbol = some k) : Spells symbol.toList [.comparator k] := by
  unfold Comparator.ofSymbol? at h
  split at h
  · rename_i other
    cases h
    rw [other]
    exact ⟨_, rfl, rfl⟩
  · have same : k.symbol = symbol := by simpa using List.find?_some h
    rw [← same]
    exact spells_symbol k

theorem evaluate_field {field : String} {k : Comparator} {l : Literal} {value : Json} {o : Ordering}
    (order : l.compare? value = some o) :
    (Tree.operand ⟨field, k, l⟩).evaluate (.object [(field, value)]) = .ok (k.holds o) := by
  have found : (Json.object [(field, value)]).field? field = some value := by simp [Json.field?]
  rw [Tree.evaluate, Condition.evaluateOn, found]
  dsimp only
  rw [Condition.evaluate, order]

theorem compile_condition {limits : Limits} {field symbol literal : String} {k : Comparator}
    (isField : Token.IsWord field) (isSymbol : Comparator.ofSymbol? symbol = some k)
    (spelled : Token.Spells literal.toList [.word literal])
    (length : (field ++ " " ++ symbol ++ " " ++ literal).utf8ByteSize ≤
      limits.maxRuleLength.toNat) :
    compile limits (field ++ " " ++ symbol ++ " " ++ literal) =
      .ok (.operand ⟨field, k, .ofText literal⟩) := by
  refine compile_eq_ok_iff_isTextOf.2 ⟨length, _, ?_,
    .first (.condition field k (.word literal)), ?_⟩
  · have comparison := (Token.spells_of_ofSymbol? isSymbol).append (Token.spells_space spelled)
      (Token.startsApart_space _)
    have condition := isField.spells.append (Token.spells_space comparison)
      (Token.startsApart_space _)
    simpa using condition
  · rw [Parser.maxOpen_condition 0 field k (.word literal)]
    exact Nat.zero_le _

/-! ## Rules on records -/

/-- **Whole numbers.** A rule that compares a field with a whole number says of a record with a
whole number what the two numbers are to each other, if 64 bits hold the number of the rule or the
nearest floats of the two differ. Of the other pairs it says what it says of equal numbers. -/
theorem evaluate_of_isWhole {limits : Limits} {field symbol literal : String} {k : Comparator}
    {n : Int} (isField : Token.IsWord field) (isSymbol : Comparator.ofSymbol? symbol = some k)
    (whole : Literal.IsWhole literal.toList n)
    (length : (field ++ " " ++ symbol ++ " " ++ literal).utf8ByteSize ≤
      limits.maxRuleLength.toNat)
    (m : Int) (low : Int64.minValue.toInt ≤ m) (high : m < UInt64.size) :
    ∃ t, compile limits (field ++ " " ++ symbol ++ " " ++ literal) = .ok t ∧
      (Literal.FitsInt64 n ∨ ¬ (Binary64.ofInt m).sameNumber (.ofInt n) →
        t.evaluate (.object [(field, .number (.integer m low high))]) =
          .ok (decide (k.Relation m n))) ∧
      (¬ Literal.FitsInt64 n → (Binary64.ofInt m).sameNumber (.ofInt n) →
        t.evaluate (.object [(field, .number (.integer m low high))]) =
          .ok (decide (k.Relation n n))) := by
  have spelled := whole.spells
  rw [String.ofList_toList] at spelled
  have value : Literal.ofText literal = .ofInt n := whole.ofChars_eq
  refine ⟨_, compile_condition isField isSymbol spelled length, ?_, ?_⟩
  · intro exact
    have order : (Literal.ofInt n).compare? (.number (.integer m low high)) =
        some (compare m n) := by
      by_cases fits : Literal.FitsInt64 n
      · exact Literal.compare?_ofInt_of_fits m low high fits
      · have differ := exact.resolve_left fits
        rw [Literal.compare?_ofInt_of_wide m low high fits]
        exact Binary64.compare?_ofInt_of_not_sameNumber differ
    rw [value, evaluate_field order, Comparator.holds_compare_eq]
  · intro wide same
    have order : (Literal.ofInt n).compare? (.number (.integer m low high)) = some .eq := by
      rw [Literal.compare?_ofInt_of_wide m low high wide]
      simpa [Binary64.sameNumber] using same
    rw [value, evaluate_field order, ← k.holds_compare_eq n n, Int.compare_eq_eq.2 rfl]

/-- The first number that 64 bits with a sign do not hold, and the greatest one of a record. -/
theorem evaluate_of_isWhole_wide :
    ∃ t, compile {} "id => 9223372036854775808" = .ok t ∧
      t.evaluate (.object [("id", .number (.ofUInt64 18446744073709551615))]) = .ok true := by
  have digits : "9223372036854775808".toList.all Char.isDigit := by decide
  have whole : Literal.IsWhole "9223372036854775808".toList 9223372036854775808 :=
    @Literal.IsWhole.digits false "9223372036854775808".toList (by decide) (List.all_eq_true.1 digits)
  have differ : ¬ (Binary64.ofInt 18446744073709551615).sameNumber
      (.ofInt 9223372036854775808) := by decide +kernel
  obtain ⟨t, compiled, exact, -⟩ := @evaluate_of_isWhole {} "id" "=>" "9223372036854775808" .gteq
    9223372036854775808 (by decide +kernel) rfl whole (by decide +kernel) 18446744073709551615
    (by decide) (by decide)
  exact ⟨t, compiled, exact (.inr differ)⟩

/-- Two whole numbers that follow each other and have one nearest float are taken for equal. -/
theorem evaluate_of_isWhole_rounded :
    ∃ t, compile {} "id = 9223372036854775809" = .ok t ∧
      t.evaluate (.object [("id", .number (.ofUInt64 9223372036854775808))]) = .ok true ∧
      ¬ Comparator.Relation .eq (9223372036854775808 : Int) 9223372036854775809 := by
  let t : Tree := .operand ⟨"id", .eq, .float (.signed false (.nearest 9223372036854775809 1))⟩
  have compiled : compile {} "id = 9223372036854775809" = .ok t :=
    Token.eq_ok_of_toOption (by decide +kernel)
  exact ⟨t, compiled, Token.eq_ok_of_toOption (by decide +kernel), by decide⟩

end RecordRules
