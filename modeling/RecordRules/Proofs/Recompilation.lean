import RecordRules.Proofs.CompiledFields
import RecordRules.Proofs.ImportedTree

/-!
# Trees compiled from their own text

The text of a tree has parentheses around each operator and spaces between its parts, so it can
exceed limits that the rule itself kept. And it shows the name of a field as it stands, so it is the
text of that tree just if each name is a bare word.
-/

namespace RecordRules

/-- Limits that allow the text of a tree. -/
def Limits.Allow (limits : Limits) (t : Tree) : Prop :=
  t.depth - 1 ≤ limits.maxNestingDepth.toNat ∧ t.text.utf8ByteSize ≤ limits.maxRuleLength.toNat

instance (limits : Limits) (t : Tree) : Decidable (limits.Allow t) :=
  inferInstanceAs (Decidable (_ ∧ _))

/-! ## Trees whose fields are words -/

section
variable {limits : Limits} {t : Tree} (fields : ∀ c ∈ t.conditions, Token.IsWord c.field)
  (writable : t.IsWritable)
include fields writable

theorem exists_tokens_text : ∃ ts, Token.tokenize t.text = .ok ts ∧
    Parser.Derives .expression (ts.map (·.kind)) t ∧
    Parser.maxOpen 0 (ts.map (·.kind)) = t.depth - 1 := by
  obtain ⟨ks, ⟨ts, lexed, rfl⟩, derived, levels⟩ := Token.exists_spells_tree fields writable
  have opened := levels 0
  exact ⟨ts, lexed, .first derived, by omega⟩

theorem compile_text_of_allow (h : limits.Allow t) : compile limits t.text = .ok t := by
  obtain ⟨ts, lexed, derived, opened⟩ := exists_tokens_text fields writable
  have accepted : Parser.Accepts limits.maxNestingDepth.toNat ts t := ⟨derived, opened ▸ h.1⟩
  exact compile_eq_ok_iff.2 ⟨h.2, ts, lexed, accepted⟩

theorem exists_error_of_not_allow (h : ¬ limits.Allow t) :
    ∃ e, compile limits t.text = .error (.parse e) := by
  obtain ⟨ts, lexed, -, opened⟩ := exists_tokens_text fields writable
  rcases Nat.lt_or_ge limits.maxRuleLength.toNat t.text.utf8ByteSize with long | length
  · exact compile_of_tooLong long
  · rw [compile_of_tokenize length lexed]
    apply exists_parse_error_of_ne_ok
    intro u hu
    apply h
    have accepted := parse_eq_ok_iff_accepts.1 hu
    exact ⟨opened ▸ accepted.2, length⟩

end

/-! ## Compiled trees -/

/-- **Recompilation.** A compiled tree with finite literals compiles to itself again where the
limits allow its text, and its text is a parse error where they do not. -/
theorem recompile_of_compile {limits : Limits} {text : String} {t : Tree}
    (h : compile limits text = .ok t) (finite : ∀ c ∈ t.conditions, c.literal.IsFinite) :
    (limits.Allow t → compile limits t.text = .ok t ∧ t.sameTree t) ∧
    (¬ limits.Allow t → ∃ e, compile limits t.text = .error (.parse e)) := by
  have fields := isWord_of_compile h
  have writable := Tree.isWritable_iff.2 ⟨finite, mixesQuotes_of_compile h⟩
  constructor
  · intro allowed
    exact ⟨compile_text_of_allow fields writable allowed, Tree.sameTree_self writable⟩
  · intro exceeded
    exact exists_error_of_not_allow fields writable exceeded

/-- Two operators and a group, where two parentheses may be open and where only one may. -/
theorem recompile_of_compile_group :
    let t : Tree := .operator .or
      (.operator .and (.operand ⟨"a", .gt, .integer 1⟩) (.operand ⟨"b", .eq, .string "x y"⟩))
      (.operand ⟨"c", .lt, .float (.signed true (.nearest 1 2))⟩)
    compile { maxNestingDepth := 2 } t.text = .ok t ∧
      ∃ e, compile { maxNestingDepth := 1 } t.text = .error (.parse e) := by
  intro t
  have finite : ∀ c ∈ t.conditions, c.literal.IsFinite := by decide +kernel
  constructor
  · have compiled : compile { maxNestingDepth := 2 } "a>1 AND b='x y' OR (c<-0.5)" = .ok t :=
      Token.eq_ok_of_toOption (by decide +kernel)
    exact ((recompile_of_compile compiled finite).1 (by decide +kernel)).1
  · have compiled : compile { maxNestingDepth := 1 } "a>1 AND b='x y' OR (c<-0.5)" = .ok t :=
      Token.eq_ok_of_toOption (by decide +kernel)
    exact (recompile_of_compile compiled finite).2 (by decide +kernel)

/-- Three conditions in a row open no parenthesis, but their text opens two; and a rule without
spaces is shorter than its text. The limits are valid, and both texts are refused. -/
theorem recompile_of_compile_exceeds :
    (∃ t, compile { maxNestingDepth := 1 } "a > 1 AND b > 1 AND c > 1" = .ok t ∧
      Limits.validate { maxNestingDepth := 1 } = .ok () ∧
      t.text = "((a > 1 AND b > 1) AND c > 1)" ∧
      ∃ e, compile { maxNestingDepth := 1 } t.text = .error (.parse e)) ∧
    ∃ t, compile { maxRuleLength := 3 } "a>1" = .ok t ∧
      Limits.validate { maxRuleLength := 3 } = .ok () ∧ t.text = "a > 1" ∧
      ∃ e, compile { maxRuleLength := 3 } t.text = .error (.parse e) := by
  constructor
  · let t : Tree := .operator .and
      (.operator .and (.operand ⟨"a", .gt, .integer 1⟩) (.operand ⟨"b", .gt, .integer 1⟩))
      (.operand ⟨"c", .gt, .integer 1⟩)
    have fields : ∀ c ∈ t.conditions, Token.IsWord c.field := by decide +kernel
    exact ⟨t, Token.eq_ok_of_toOption (by decide +kernel), rfl, by decide +kernel,
      exists_error_of_not_allow fields (by decide +kernel) (by decide +kernel)⟩
  · let t : Tree := .operand ⟨"a", .gt, .integer 1⟩
    have fields : ∀ c ∈ t.conditions, Token.IsWord c.field := by decide +kernel
    exact ⟨t, Token.eq_ok_of_toOption (by decide +kernel), rfl, by decide +kernel,
      exists_error_of_not_allow fields (by decide +kernel) (by decide +kernel)⟩

/-! ## Imported trees -/

theorem Tree.fields_eq_of_sameTree {t u : Tree} (h : t.sameTree u) :
    t.conditions.map (·.field) = u.conditions.map (·.field) := by
  induction t generalizing u with
  | operand c =>
    cases u with
    | operand d =>
      have same : c.sameCondition d := h
      simp only [Condition.sameCondition, Bool.and_eq_true, beq_iff_eq] at same
      simp [conditions, same.1.1]
    | operator k l r => cases h
  | operator k l r ihl ihr =>
    cases u with
    | operand d => cases h
    | operator k' l' r' =>
      simp only [sameTree, Bool.and_eq_true] at h
      simp [conditions, ihl h.1.2, ihr h.2]

/-- **Imported rules.** A tree from JSON is what its text compiles to, where the limits allow it, if
the name of each field is a bare word. If one is not, no tree that is equal to it is. -/
theorem compile_text_of_imported {limits : Limits} {j : Json} {t : Tree}
    (h : Exchange.treeOfValue j = .ok t) (allowed : limits.Allow t) :
    ((∀ c ∈ t.conditions, Token.IsWord c.field) → compile limits t.text = .ok t ∧ t.sameTree t) ∧
    ((∃ u, compile limits t.text = .ok u ∧ u.sameTree t) →
      ∀ c ∈ t.conditions, Token.IsWord c.field) := by
  have writable := Exchange.isWritable_of_tree h
  constructor
  · intro fields
    exact ⟨compile_text_of_allow fields writable allowed, Tree.sameTree_self writable⟩
  · rintro ⟨u, compiled, same⟩ c hc
    have names := Tree.fields_eq_of_sameTree same
    have mem : c.field ∈ u.conditions.map (·.field) := names ▸ List.mem_map_of_mem hc
    obtain ⟨d, hd, hfield⟩ := List.mem_map.1 mem
    rw [← hfield]
    exact isWord_of_compile compiled d hd

/-- The JSON of a leaf that compares a field with 2. -/
def importedLeaf (field : String) : Json :=
  .object [("node_type", .string "operand"),
    ("value", .object [("field", .string field), ("comparator", .string "eq"),
      ("literal", .number (.ofInt64 2))])]

/-- A field with a letter of another script. -/
theorem compile_text_of_imported_letter :
    let t : Tree := .operand ⟨"größe", .eq, .integer 2⟩
    Exchange.treeOfValue (importedLeaf "größe") = .ok t ∧ Limits.Allow {} t ∧
      compile {} t.text = .ok t := by
  intro t
  have imported : Exchange.treeOfValue (importedLeaf "größe") = .ok t := rfl
  have allowed : Limits.Allow {} t := by decide +kernel
  have fields : ∀ c ∈ t.conditions, Token.IsWord c.field := by decide +kernel
  exact ⟨imported, allowed, ((compile_text_of_imported imported allowed).1 fields).1⟩

/-- A field that holds a space is refused in rule text, and one that holds a comparison becomes
another rule. -/
theorem compile_text_of_imported_fails :
    (∃ t, Exchange.treeOfValue (importedLeaf "first name") = .ok t ∧ Limits.Allow {} t ∧
      ∃ e, compile {} t.text = .error e) ∧
    ∃ t, Exchange.treeOfValue (importedLeaf "a = 1 OR b") = .ok t ∧ Limits.Allow {} t ∧
      ∃ u, compile {} t.text = .ok u ∧ u.operandCount = 2 ∧ ¬ u.sameTree t := by
  constructor
  · exact ⟨_, rfl, by decide +kernel, _, rfl⟩
  · have compiled : compile {} "a = 1 OR b = 2" = .ok (.operator .or
        (.operand ⟨"a", .eq, .integer 1⟩) (.operand ⟨"b", .eq, .integer 2⟩)) :=
      Token.eq_ok_of_toOption (by decide +kernel)
    have text : (Tree.operand ⟨"a = 1 OR b", .eq, .integer 2⟩).text = "a = 1 OR b = 2" := by
      decide +kernel
    exact ⟨.operand ⟨"a = 1 OR b", .eq, .integer 2⟩, rfl, by decide +kernel, _, text ▸ compiled,
      rfl, by decide⟩

end RecordRules
