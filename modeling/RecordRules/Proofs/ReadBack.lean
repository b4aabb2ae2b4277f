import RecordRules.Proofs.Numerals

/-!
# Literals read back from their text

A text that is written for a literal stands for that literal and for no other: a string is known by
its quotes, a float by its point and a whole number by having none. Main statement: every literal
is read back from its text as it was, up to the floats that are not finite, and no two literals
have the same text.
-/

namespace RecordRules

namespace Literal

/-! ## Texts of the three kinds -/

theorem isPointed_text {x : Binary64} (h : x.IsFinite) : IsPointed (float x).text.toList := by
  cases x with
  | nan => exact h.elim
  | signed negative m =>
    obtain ⟨whole, fraction, split, hne, hne', all, all', -⟩ :=
      (Decimal.shortest .up m).exists_positional
    rw [text, toList_floatText negative h, split]
    exact .digits negative hne all hne' all'

theorem ofText?_text {x : Binary64} (h : x.IsFinite) :
    Binary64.ofText? (float x).text = some x := by
  obtain ⟨v, parsed, read⟩ := exists_parsed_of_isPointed (isPointed_text h)
  rw [ofText_float h] at read
  rw [parsed, float.inj read]

theorem exists_toList_text_string (s : String) :
    ∃ q, (string s).text.toList = q :: (s.toList ++ [q]) := by
  show ∃ q, (quote s).toList = q :: (s.toList ++ [q])
  unfold quote
  split
  · exact ⟨'"', by simp⟩
  · exact ⟨'\'', by simp⟩

/-- Quotes make a text longer. -/
theorem text_string_ne (s : String) : (string s).text ≠ s := by
  obtain ⟨q, quoted⟩ := exists_toList_text_string s
  intro same
  rw [same] at quoted
  have := congrArg List.length quoted
  simp at this
  omega

theorem eq_of_not_isFinite {l : Literal} (h : ¬ l.IsFinite) :
    l = float .nan ∨ ∃ negative, l = float (.signed negative .infinity) := by
  cases l with
  | integer n => exact absurd trivial h
  | string s => exact absurd trivial h
  | float x =>
    cases x with
    | nan => exact .inl rfl
    | signed negative m =>
      have infinite : ¬ m.val < infinityRank := h
      have top : m = .infinity := Fin.ext (by
        show m.val = infinityRank
        omega)
      exact .inr ⟨negative, by rw [top]⟩

/-! ## Reading back -/

theorem ofText_text {l : Literal} (h : l.IsFinite) : ofText l.text = l := by
  cases l with
  | integer n => exact ofText_integer n
  | float x => exact ofText_float h
  | string s => exact ofText_string s

/-- The name of a float that is not finite is read as a string. -/
theorem ofText_text_of_not_isFinite {l : Literal} (h : ¬ l.IsFinite) :
    ofText l.text = string l.text := by
  obtain rfl | ⟨negative, rfl⟩ := eq_of_not_isFinite h
  · decide
  · cases negative <;> decide

theorem eq_of_text_eq_of_not_isFinite {l m : Literal} (h : l.text = m.text) (hl : ¬ l.IsFinite) :
    l = m := by
  have read := ofText_text_of_not_isFinite hl
  by_cases hm : m.IsFinite
  · rw [h, ofText_text hm] at read
    exact absurd (congrArg text read) (text_string_ne _).symm
  · obtain rfl | ⟨negative, rfl⟩ := eq_of_not_isFinite hl
    · obtain rfl | ⟨negative, rfl⟩ := eq_of_not_isFinite hm
      · rfl
      · cases negative <;> exact absurd h (by decide)
    · obtain rfl | ⟨negative', rfl⟩ := eq_of_not_isFinite hm
      · cases negative <;> exact absurd h (by decide)
      · cases negative <;> cases negative' <;> first | rfl | exact absurd h (by decide)

theorem text_injective {l m : Literal} (h : l.text = m.text) : l = m := by
  by_cases hl : l.IsFinite
  · by_cases hm : m.IsFinite
    · rw [← ofText_text hl, h, ofText_text hm]
    · exact (eq_of_text_eq_of_not_isFinite h.symm hm).symm
  · exact eq_of_text_eq_of_not_isFinite h hl

/-- **Round trip.** Whole numbers and strings are read back from their text as they were, whatever
the string holds, and so are just the floats that are finite. The text of those is a plain numeral
with a point, which the reader of floats takes for the same float. So what is read back is equal as
a value too, and no two literals have one text. -/
theorem read_back :
    (∀ n : Int64, ofText (integer n).text = integer n) ∧
    (∀ s : String, ofText (string s).text = string s) ∧
    (∀ x : Binary64, ofText (float x).text = float x ↔ x.IsFinite) ∧
    (∀ x : Binary64, x.IsFinite →
      IsPointed (float x).text.toList ∧ Binary64.ofText? (float x).text = some x) ∧
    (∀ l : Literal, l.IsFinite →
      (ofText l.text).sameValue l ∧ inferBy Binary64.ofText? l.text = l) ∧
    ∀ l m : Literal, l.text = m.text → l = m := by
  refine ⟨ofText_integer, ofText_string, fun x => ⟨fun back => ?_, ofText_float⟩,
    fun x h => ⟨isPointed_text h, ofText?_text h⟩, fun l h => ?_, fun l m => text_injective⟩
  · apply Decidable.byContradiction
    intro infinite
    have named : ofText (float x).text = string (float x).text :=
      ofText_text_of_not_isFinite infinite
    rw [named] at back
    cases back
  · rw [inferBy_ofText?, ofText_text h]
    exact ⟨sameValue_self h, rfl⟩

/-- A float that 64 bits do not hold as a whole number, and a string that is all quotes. -/
theorem read_back_quotes :
    let wide : Binary64 := .signed true (.nearest (2 ^ 63 + 2 ^ 11) 1)
    let quotes : Literal := string "'\"'"
    wide.IsFinite ∧ IsPointed (float wide).text.toList ∧
      Binary64.ofText? (float wide).text = some wide ∧ quotes.text = "\"'\"'\"" ∧
      (ofText quotes.text).sameValue quotes ∧ ofText "\"'\"'\"" = quotes := by
  intro wide quotes
  obtain ⟨-, strings, -, floats, finite, same⟩ := read_back
  have isFinite : wide.IsFinite := by decide +kernel
  have shown : quotes.text = "\"'\"'\"" := by decide
  have again : (ofText quotes.text).text = quotes.text := by decide
  refine ⟨isFinite, (floats wide isFinite).1, (floats wide isFinite).2, shown,
    (finite quotes trivial).1, ?_⟩
  rw [← shown]
  exact same _ _ again

end Literal

end RecordRules
