import RecordRules.Proofs.CompiledLiterals
import RecordRules.Proofs.Exchange

/-!
# Compiled literals written back

A literal comes back from its own text, and from the JSON value of its leaf, if it is finite and not
otherwise. The literals of a compiled rule are finite up to the numbers that are too great for a
float.
-/

namespace RecordRules

open Exchange (treeOfValue)

/-- The texts of floats that are not finite are those of strings. -/
theorem Literal.sameValue_ofText_text_iff (l : Literal) :
    (ofText l.text).sameValue l ↔ l.IsFinite := by
  cases l with
  | integer n => simp [ofText_integer, sameValue, IsFinite]
  | string s => simp [ofText_string, sameValue, IsFinite]
  | float x =>
    by_cases finite : x.IsFinite
    · rw [ofText_float finite]
      exact iff_of_true (sameValue_self finite) finite
    · refine iff_of_false ?_ finite
      cases x with
      | nan => decide
      | signed negative m =>
        have infinite : ¬ m.IsFinite := finite
        cases negative <;> simp [text, floatText, infinite, ofText, ofChars, unquoted?, unquotedBy?,
          Decimal.takeMinus, pointed?, sameValue]

theorem Exchange.exists_treeOfValue_toJson_iff (t : Tree) :
    (∃ u, treeOfValue t.toJson = .ok u ∧ u.sameTree t) ↔ t.IsWritable := by
  constructor
  · rintro ⟨u, read, -⟩
    apply Decidable.byContradiction
    intro unwritable
    obtain ⟨fault, refused⟩ := exists_tree_toJson_error unwritable .value
    have same : treeOfValue t.toJson = .error fault := refused
    rw [same] at read
    cases read
  · intro writable
    exact ⟨t, tree_toJson writable .value, Tree.sameTree_self writable⟩

/-- **Written back.** Each literal of a compiled rule is read from a token of the rule, and comes
back from its text and from JSON unless the token shows a number that overflows; then it comes back
from neither. -/
theorem written_back_of_compile {limits : Limits} {text : String} {t : Tree}
    (h : compile limits text = .ok t) :
    ∃ tokens, Token.tokenize text = .ok tokens ∧ ∀ c ∈ t.conditions, ∃ kind word,
      [.word c.field, .comparator c.comparator, kind] <:+: tokens.map (·.kind) ∧
      Parser.IsLiteral kind word ∧ c.literal = .ofText word ∧
      ((Literal.ofText c.literal.text).sameValue c.literal ↔ ¬ Literal.Overflows word) ∧
      ((∃ u, treeOfValue (Tree.operand c).toJson = .ok u ∧ u.sameTree (.operand c)) ↔
        ¬ Literal.Overflows word) := by
  obtain ⟨tokens, lexed, derived, -⟩ := exists_tokens_of_compile h
  refine ⟨tokens, lexed, fun c hc => ?_⟩
  obtain ⟨kind, word, leaf, literal, hvalue⟩ := derived.exists_leaf hc
  have finite : c.literal.IsFinite ↔ ¬ Literal.Overflows word := by
    rw [hvalue, Literal.isFinite_ofText_iff]
  have writable : (Tree.operand c).IsWritable ↔ c.literal.IsFinite := by
    simp [Tree.isWritable_iff, Tree.conditions, mixesQuotes_of_compile h c hc]
  refine ⟨kind, word, leaf, literal, hvalue, ?_, ?_⟩
  · rw [Literal.sameValue_ofText_text_iff, finite]
  · rw [Exchange.exists_treeOfValue_toJson_iff, writable, finite]

/-- A whole number that 64 bits do not hold. -/
theorem written_back_of_compile_wide :
    let c : Condition := ⟨"n", .eq, .float (.signed false (.nearest (2 ^ 63) 1))⟩
    compile {} "n = 9223372036854775808" = .ok (.operand c) ∧
      (Literal.ofText c.literal.text).sameValue c.literal ∧
      ∃ u, treeOfValue (Tree.operand c).toJson = .ok u ∧ u.sameTree (.operand c) := by
  intro c
  have compiled : compile {} "n = 9223372036854775808" = .ok (.operand c) :=
    Token.eq_ok_of_toOption (by decide +kernel)
  obtain ⟨tokens, lexed, back⟩ := written_back_of_compile compiled
  obtain ⟨kind, word, leaf, literal, -, fromText, fromJson⟩ := back c (List.mem_singleton.2 rfl)
  have lexed' : Token.tokenize "n = 9223372036854775808" =
      .ok [⟨.word "n", 0⟩, ⟨.comparator .eq, 2⟩, ⟨.word "9223372036854775808", 4⟩] :=
    Token.eq_ok_of_toOption (by decide +kernel)
  obtain rfl := Except.ok.inj (lexed.symm.trans lexed')
  have same := leaf.eq_of_length rfl
  obtain ⟨-, -, rfl⟩ : _ ∧ _ ∧ kind = .word "9223372036854775808" := by simpa using same
  cases literal
  have room : ¬ Literal.Overflows "9223372036854775808" := by decide +kernel
  exact ⟨compiled, fromText.2 room, fromJson.2 room⟩

/-- A number of 309 digits is infinite. Its text is read as a string, and its JSON is refused. -/
theorem written_back_of_compile_fails :
    ∃ c, compile {} ("x = " ++ String.ofList ('2' :: List.replicate 308 '0')) = .ok (.operand c) ∧
      Literal.ofText c.literal.text = .string "inf" ∧
      ∃ fault, treeOfValue (Tree.operand c).toJson = .error fault := by
  generalize hword : String.ofList ('2' :: List.replicate 308 '0') = word
  have chars : word.toList = '2' :: List.replicate 308 '0' := by rw [← hword, String.toList_ofList]
  have lexed : Token.tokenize ("x = " ++ word) =
      .ok [⟨.word "x", 0⟩, ⟨.comparator .eq, 2⟩, ⟨.word word, 4⟩] := by
    rw [Token.tokenize, String.toList_append, chars, ← hword]
    exact Token.eq_ok_of_toOption (by decide +kernel)
  have length : ("x = " ++ word).utf8ByteSize ≤ 65536 := by
    rw [← hword, String.utf8ByteSize_append, Token.utf8ByteSize_ofList]
    decide +kernel
  have infinite : Literal.ofText word = .float (.signed false .infinity) := by
    rw [Literal.ofText, chars]
    decide +kernel
  have unwritable : ¬ (Tree.operand ⟨"x", .eq, .ofText word⟩).IsWritable := by
    rw [infinite]
    decide
  refine ⟨⟨"x", .eq, .ofText word⟩, ?_, ?_, Exchange.exists_tree_toJson_error unwritable .value⟩
  · rw [compile_of_tokenize length lexed]
    rfl
  · rw [infinite]
    decide +kernel

end RecordRules
