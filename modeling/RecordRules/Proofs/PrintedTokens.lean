import RecordRules.Proofs.CompiledFields
import RecordRules.Proofs.JoinedTexts
import RecordRules.Proofs.SpacedTexts

/-!
# Tokens printed and read again

The text that a token shows is a lexeme of its own kind. So the tokens of a text, printed with any
white space between them, are read as the same kinds of tokens, and the text compiles to the same
tree however it is spaced and spelled.
-/

namespace RecordRules

namespace Token

/-! ## One token -/

theorem IsLexeme.spells {cs : List Char} {kind : Kind} (h : IsLexeme cs kind) :
    Spells cs [kind] := by
  obtain ⟨c, rest, rfl, hc⟩ := h.exists_start
  exact spells_of_lexeme? hc h.lexeme?_eq

/-- A kind that a lexeme has is the kind of the text that it is printed as. -/
theorem IsLexeme.spells_text {cs : List Char} {kind : Kind} (h : IsLexeme cs kind) :
    Spells kind.text.toList [kind] := by
  rcases h.shows with shown | ⟨rfl, -⟩
  · rw [← shown]
    exact h.spells
  · exact spells_symbol .gteq

/-! ## Printed tokens -/

theorem IsSpace.spells_append {space cs : List Char} {ks : List Kind} (white : IsSpace space)
    (h : Spells cs ks) : Spells (space ++ cs) ks := by
  obtain ⟨ts, hts, hks⟩ := h.scan (0 + byteSize space)
  exact ⟨ts, by rw [scan_space white, hts], hks⟩

/-- Texts one after the other, `separator i` behind the text at `i` if it is not the last. -/
def separated (separator : Nat → String) : List String → String
  | [] => ""
  | [text] => text
  | text :: rest => text ++ separator 0 ++ separated (fun i => separator (i + 1)) rest

/-- The tokens as they show, with separators between them. -/
def printed (separator : Nat → String) (tokens : List Token) : String :=
  separated separator (tokens.map (·.kind.text))

theorem spells_separated {separator : Nat → String}
    (white : ∀ i, separator i ≠ "" ∧ IsSpace (separator i).toList) {ks : List Kind}
    (lexemes : ∀ kind ∈ ks, ∃ lexeme, IsLexeme lexeme kind) :
    Spells (separated separator (ks.map Kind.text)).toList ks := by
  induction ks generalizing separator with
  | nil => exact ⟨[], rfl, rfl⟩
  | cons kind ks ih =>
    rw [List.forall_mem_cons] at lexemes
    obtain ⟨⟨lexeme, hlexeme⟩, lexemes⟩ := lexemes
    have first := hlexeme.spells_text
    rcases ks with _ | ⟨next, ks⟩
    · exact first
    · obtain ⟨hne, space⟩ := white 0
      have rest := ih (fun i => white (i + 1)) lexemes
      simp only [List.map_cons, separated, String.toList_append, List.append_assoc] at rest ⊢
      exact first.append (space.spells_append rest)
        (space.startsApart_append (by simpa using hne) _)

theorem spells_printed {text : String} {tokens : List Token} (h : tokenize text = .ok tokens)
    {separator : Nat → String}
    (white : ∀ i, separator i ≠ "" ∧ IsSpace (separator i).toList) :
    Spells (printed separator tokens).toList (tokens.map (·.kind)) := by
  have spelled := spells_separated white fun kind => exists_isLexeme_of_tokenize h
  rwa [List.map_map] at spelled

end Token

/-- Whether a text is part of a rule is a matter of the kinds of its tokens. -/
theorem isTextOf_iff_of_spells {part : Parser.Part} {levels : Nat} {text : String} {t : Tree}
    {ks : List Token.Kind} (h : Token.Spells text.toList ks) :
    IsTextOf part levels text t ↔ Parser.Derives part ks t ∧ Parser.maxOpen 0 ks ≤ levels := by
  constructor
  · rintro ⟨ls, ⟨ts, hts, rfl⟩, derived, levels⟩
    obtain ⟨us, hus, rfl⟩ := h
    obtain rfl : ts = us := by simpa [hts] using hus
    exact ⟨derived, levels⟩
  · rintro ⟨derived, levels⟩
    exact ⟨ks, h, derived, levels⟩

namespace Token

/-- **Printed tokens.** The tokens of a text, printed with any white space between them, are read as
the same kinds of tokens. So both texts compile to the same trees, as far as limits on their length
go. -/
theorem tokenize_printed {text : String} {tokens : List Token} (h : tokenize text = .ok tokens)
    {separator : Nat → String}
    (white : ∀ i, separator i ≠ "" ∧ IsSpace (separator i).toList) :
    (∃ ts, tokenize (printed separator tokens) = .ok ts ∧
      ts.map (·.kind) = tokens.map (·.kind)) ∧
    ∀ limits other : Limits, limits.maxNestingDepth = other.maxNestingDepth →
      text.utf8ByteSize ≤ limits.maxRuleLength.toNat →
      (printed separator tokens).utf8ByteSize ≤ other.maxRuleLength.toNat →
      ∀ t, compile limits text = .ok t ↔ compile other (printed separator tokens) = .ok t := by
  have spelled := spells_printed h white
  refine ⟨spelled, ?_⟩
  intro limits other depth length length' t
  have source : Spells text.toList (tokens.map (·.kind)) := ⟨tokens, h, rfl⟩
  simp only [compile_eq_ok_iff_isTextOf, isTextOf_iff_of_spells source,
    isTextOf_iff_of_spells spelled, length, length', depth, true_and]

/-- Tokens without white space between them, the other sign for "at least", a sign and a fraction,
and a string with white space and the other quote, printed over several lines. -/
theorem tokenize_printed_glued :
    let text := "(a=>-1.5)AND b!='x  \"y'"
    let separator (i : Nat) := if i % 2 = 0 then "\n" else " \u3000"
    let tokens : List Token := [⟨.openParen, 0⟩, ⟨.word "a", 1⟩, ⟨.comparator .gteq, 2⟩,
      ⟨.word "-1.5", 4⟩, ⟨.closeParen, 8⟩, ⟨.combinator .and, 9⟩, ⟨.word "b", 13⟩,
      ⟨.comparator .neq, 14⟩, ⟨.quoted "'x  \"y'", 16⟩]
    let shown := "(\na \u3000>=\n-1.5 \u3000)\nAND \u3000b\n!= \u3000'x  \"y'"
    printed separator tokens = shown ∧
      (∃ ts, tokenize shown = .ok ts ∧ ts.map (·.kind) = tokens.map (·.kind)) ∧
      ∀ t, compile {} text = .ok t ↔ compile {} shown = .ok t := by
  intro text separator tokens shown
  have lexed : tokenize text = .ok tokens := eq_ok_of_toOption (by decide +kernel)
  have white (i : Nat) : separator i ≠ "" ∧ IsSpace (separator i).toList := by
    have newline : IsSpace "\n".toList := List.all_eq_true.1 (by decide)
    have blank : IsSpace " \u3000".toList := List.all_eq_true.1 (by decide)
    rcases Nat.mod_two_eq_zero_or_one i with even | odd
    · simpa [separator, even] using newline
    · simpa [separator, odd] using blank
  have same : printed separator tokens = shown := by decide +kernel
  obtain ⟨kinds, compiled⟩ := tokenize_printed lexed white
  rw [same] at kinds compiled
  exact ⟨same, kinds, compiled {} {} rfl (by decide +kernel) (by decide +kernel)⟩

end Token

end RecordRules
