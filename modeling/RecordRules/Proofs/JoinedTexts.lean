import RecordRules.Proofs.Combination
import RecordRules.Proofs.CompiledLiterals

/-!
# Rule texts joined into one

Rule texts in parentheses with a combinator between them are the text of one rule. It compiles to
the combination of the rules where one more parenthesis may be open.
-/

namespace RecordRules

open RecordRules.Parser (Part Derives maxOpen)

/-- A rule text in parentheses. -/
def groupText (rule : String) : String := "(" ++ rule ++ ")"

/-- Rule texts, each in parentheses, with the keyword of a combinator between them. -/
def joinTexts (k : Combinator) (rules : List String) : String :=
  (" " ++ k.keyword ++ " ").intercalate (rules.map groupText)

theorem intercalate_cons (between first : String) (rest : List String) :
    between.intercalate (first :: rest) =
      rest.foldl (fun joined text => joined ++ between ++ text) first := by
  induction rest generalizing first with
  | nil => exact String.intercalate_singleton
  | cons second rest ih =>
    rw [String.intercalate_cons_cons, List.foldl_cons, ← ih]
    cases rest with
    | nil => simp
    | cons third rest => simp [String.append_assoc]

/-! ## Texts of a part of the grammar -/

/-- A text whose tokens are a part of the grammar, with `levels` parentheses open at once or
fewer. -/
def IsTextOf (part : Part) (levels : Nat) (text : String) (t : Tree) : Prop :=
  ∃ ks, Token.Spells text.toList ks ∧ Derives part ks t ∧ maxOpen 0 ks ≤ levels

theorem compile_eq_ok_iff_isTextOf {limits : Limits} {text : String} {t : Tree} :
    compile limits text = .ok t ↔ text.utf8ByteSize ≤ limits.maxRuleLength.toNat ∧
      IsTextOf .expression limits.maxNestingDepth.toNat text t := by
  rw [compile_eq_ok_iff]
  refine and_congr_right fun _ => ?_
  constructor
  · rintro ⟨ts, lexed, derived, levels⟩
    exact ⟨_, ⟨ts, lexed, rfl⟩, derived, levels⟩
  · rintro ⟨-, ⟨ts, lexed, rfl⟩, derived, levels⟩
    exact ⟨ts, lexed, derived, levels⟩

namespace IsTextOf

variable {levels : Nat} {text : String} {t : Tree}

theorem first (h : IsTextOf .term levels text t) : IsTextOf .expression levels text t := by
  obtain ⟨ks, spelled, derived, open_le⟩ := h
  exact ⟨ks, spelled, .first derived, open_le⟩

theorem group (h : IsTextOf .expression levels text t) :
    IsTextOf .term (levels + 1) (groupText text) t := by
  obtain ⟨ks, spelled, derived, open_le⟩ := h
  refine ⟨_, ?_, derived.group, ?_⟩
  · have closed := spelled.append Token.spells_closeParen (Token.startsApart_cons.2 (by decide))
    simpa [groupText] using Token.spells_openParen closed
  · rw [derived.maxOpen_group, derived.maxOpen_succ]
    omega

theorem more (k : Combinator) (h : IsTextOf .expression levels text t) {right : String} {u : Tree}
    (hr : IsTextOf .term levels right u) :
    IsTextOf .expression levels (text ++ (" " ++ k.keyword ++ " ") ++ right) (.operator k t u) := by
  obtain ⟨ks, spelled, derived, open_le⟩ := h
  obtain ⟨ls, spelled', derived', open_le'⟩ := hr
  refine ⟨_, ?_, derived.more k derived', ?_⟩
  · have keyword := (Token.spells_keyword k).append (Token.spells_space spelled')
      (Token.startsApart_space _)
    have both := spelled.append (Token.spells_space keyword) (Token.startsApart_space _)
    simpa using both
  · rw [derived.maxOpen_joined]
    omega

/-- Rules in parentheses, one after the other, behind a text that is an expression. -/
theorem foldl (k : Combinator) {limits : Limits}
    (h : IsTextOf .expression (limits.maxNestingDepth.toNat + 1) text t)
    {rules : List String} {trees : List Tree}
    (compiled : rules.map (compile limits) = trees.map .ok) :
    IsTextOf .expression (limits.maxNestingDepth.toNat + 1)
      ((rules.map groupText).foldl (fun joined rule => joined ++ (" " ++ k.keyword ++ " ") ++ rule)
        text)
      (trees.foldl (.operator k) t) := by
  induction rules generalizing text t trees with
  | nil =>
    obtain rfl : trees = [] := List.map_eq_nil_iff.1 compiled.symm
    exact h
  | cons rule rules ih =>
    obtain ⟨u, trees, rfl, hu, rest⟩ := List.map_eq_cons_iff.1 compiled.symm
    have grouped := (compile_eq_ok_iff_isTextOf.1 hu.symm).2.group
    exact ih (h.more k grouped) rest.symm

end IsTextOf

/-! ## Combinations -/

theorem isTextOf_joinTexts (k : Combinator) {limits : Limits} {rules : List String} {first : Tree}
    {rest : List Tree} (compiled : rules.map (compile limits) = (first :: rest).map .ok) :
    IsTextOf .expression (limits.maxNestingDepth.toNat + 1) (joinTexts k rules)
      (rest.foldl (.operator k) first) := by
  obtain ⟨rule, rules, rfl, hrule, hrules⟩ := List.map_eq_cons_iff.1 compiled
  have grouped := (compile_eq_ok_iff_isTextOf.1 hrule).2.group
  rw [joinTexts, List.map_cons, intercalate_cons]
  exact grouped.first.foldl k hrules

/-- **Joined texts.** What several rules combine to is what their texts compile to as one text: each
in parentheses, with the combinator that they use most between them. It needs one parenthesis more
to be open than the rules need. -/
theorem compile_joinTexts_of_combine {limits : Limits} {rules : List String} {t : Tree}
    (h : combine limits rules = .ok t) :
    ∃ kind, dominant rules = .ok kind ∧ ∀ wider : Limits,
      limits.maxNestingDepth.toNat + 1 ≤ wider.maxNestingDepth.toNat →
      (joinTexts kind rules).utf8ByteSize ≤ wider.maxRuleLength.toNat →
      compile wider (joinTexts kind rules) = .ok t ∧ t.sameTree t := by
  obtain ⟨first, rest, kind, trees, hkind, rfl⟩ := exists_trees_of_combine h
  refine ⟨kind, hkind, fun wider room length => ?_⟩
  obtain ⟨ks, spelled, derived, levels⟩ := isTextOf_joinTexts kind trees
  have compiled : compile wider (joinTexts kind rules) = .ok (rest.foldl (.operator kind) first) :=
    compile_eq_ok_iff_isTextOf.2 ⟨length, ks, spelled, derived, levels.trans room⟩
  exact ⟨compiled, sameTree_self_of_compile compiled⟩

/-- Three rules, of which one has a parenthesis of its own and one ends in a word, where one
parenthesis may be open and where two may. -/
theorem compile_joinTexts_of_combine_staff :
    let rules := ["(a > 1 OR b = x)", "c != 2.5 OR d < -3", "e = f"]
    let t : Tree := .operator .or
      (.operator .or
        (.operator .or (.operand ⟨"a", .gt, .integer 1⟩) (.operand ⟨"b", .eq, .string "x"⟩))
        (.operator .or (.operand ⟨"c", .neq, .float (.signed false (.nearest 5 2))⟩)
          (.operand ⟨"d", .lt, .integer (-3)⟩)))
      (.operand ⟨"e", .eq, .string "f"⟩)
    combine { maxNestingDepth := 1 } rules = .ok t ∧
      compile { maxNestingDepth := 2 }
        "((a > 1 OR b = x)) OR (c != 2.5 OR d < -3) OR (e = f)" = .ok t := by
  intro rules t
  have combined : combine { maxNestingDepth := 1 } rules = .ok t :=
    Token.eq_ok_of_toOption (by decide +kernel)
  obtain ⟨kind, hkind, joined⟩ := compile_joinTexts_of_combine combined
  have most : dominant rules = .ok .or := Token.eq_ok_of_toOption (by decide +kernel)
  obtain rfl : kind = .or := Except.ok.inj (hkind.symm.trans most)
  have text : joinTexts .or rules =
      "((a > 1 OR b = x)) OR (c != 2.5 OR d < -3) OR (e = f)" := by decide +kernel
  rw [text] at joined
  exact ⟨combined, (joined { maxNestingDepth := 2 } (by decide) (by decide +kernel)).1⟩

end RecordRules
