import RecordRules.Compilation
import RecordRules.Proofs.Results

/-!
# Several rules compiled into one

A combination splits all rules into tokens before it parses the first, so it is compared with the
compilation of one rule after the other: the results are the same, and of several errors the first
one of the earlier phase counts.
-/

namespace RecordRules

/-! ## Rules split into tokens -/

/-- Whether a rule is too long or not made of tokens. -/
def isUnreadable (limits : Limits) (rule : String) : Bool :=
  limits.maxRuleLength.toNat < rule.utf8ByteSize || !(Token.tokenize rule).isOk

theorem isUnreadable_eq (limits : Limits) (rule : String) :
    isUnreadable limits rule = !(tokensWithin limits rule).isOk := by
  unfold isUnreadable tokensWithin
  split
  · rename_i hlong
    simp [hlong, Except.isOk, Except.toBool]
  · rename_i hlong
    simp only [hlong, decide_false, Bool.false_or]
    cases Token.tokenize rule <;> rfl

theorem tokenize_of_tokensWithin {limits : Limits} {rule : String} {ts : List Token}
    (h : tokensWithin limits rule = .ok ts) :
    (Token.tokenize rule).mapError RuleError.lex = .ok ts := by
  unfold tokensWithin at h
  split at h
  · cases h
  · exact h

theorem dominant_of_streams {limits : Limits} {rules : List String} {streams : List (List Token)}
    (h : rules.mapM (tokensWithin limits) = .ok streams) :
    dominant rules = .ok (dominantOf streams.flatten) := by
  have split : rules.mapM (fun rule => (Token.tokenize rule).mapError RuleError.lex) =
      .ok streams := by
    rw [mapM_eq_ok_iff] at h ⊢
    rw [← h]
    refine List.map_congr_left fun rule hrule => ?_
    obtain ⟨ts, -, hts⟩ := List.mem_map.1 (h ▸ List.mem_map_of_mem hrule)
    rw [← hts, tokenize_of_tokensWithin hts.symm]
  rw [dominant, split]
  rfl

/-! ## Compilations that fail -/

theorem compile_ne_emptyRuleSet (limits : Limits) (rule : String) :
    compile limits rule ≠ .error .emptyRuleSet := by
  unfold compile tokensWithin parse
  split
  · nofun
  · cases Token.tokenize rule with
    | error e => nofun
    | ok ts =>
      change (Parser.parse limits.maxNestingDepth.toNat ts).mapError RuleError.parse ≠ _
      cases Parser.parse limits.maxNestingDepth.toNat ts with
      | error e => nofun
      | ok t => nofun

theorem compile_of_tokensWithin {limits : Limits} {rule : String} {e : RuleError}
    (h : tokensWithin limits rule = .error e) : compile limits rule = .error e := by
  rw [compile, h]
  rfl

/-! ## Combinations -/

theorem combine_of_streams {limits : Limits} {rules : List String} {streams : List (List Token)}
    (h : rules.mapM (tokensWithin limits) = .ok streams) :
    combine limits rules = (do
      match ← rules.mapM (compile limits) with
      | [] => throw .emptyRuleSet
      | first :: rest => return joinAll (dominantOf streams.flatten) first rest) := by
  have trees : rules.mapM (compile limits) = streams.mapM (parse limits) :=
    mapM_bind h (parse limits)
  rw [combine, h, trees]
  rfl

theorem combine_of_trees {limits : Limits} {rules : List String} {first : Tree} {rest : List Tree}
    (h : rules.map (compile limits) = (first :: rest).map .ok) :
    ∃ kind, dominant rules = .ok kind ∧
      combine limits rules = .ok (rest.foldl (.operator kind) first) := by
  have trees := mapM_eq_ok_iff.2 h
  cases hs : rules.mapM (tokensWithin limits) with
  | error e =>
    obtain ⟨rule, hfind, hrule⟩ := mapM_eq_error_iff.1 hs
    have compiled : compile limits rule ∈ (first :: rest).map .ok :=
      h ▸ List.mem_map_of_mem (List.mem_of_find?_eq_some hfind)
    rw [compile_of_tokensWithin hrule] at compiled
    simp at compiled
  | ok streams =>
    refine ⟨dominantOf streams.flatten, dominant_of_streams hs, ?_⟩
    rw [combine_of_streams hs, trees]
    rfl

theorem exists_trees_of_combine {limits : Limits} {rules : List String} {t : Tree}
    (h : combine limits rules = .ok t) :
    ∃ first rest kind, rules.map (compile limits) = (first :: rest).map .ok ∧
      dominant rules = .ok kind ∧ t = rest.foldl (.operator kind) first := by
  unfold combine at h
  obtain ⟨streams, hs, h⟩ := exists_of_bind_eq_ok h
  obtain ⟨trees, ht, h⟩ := exists_of_bind_eq_ok h
  cases trees with
  | nil => cases h
  | cons first rest =>
    cases h
    have compiled : rules.mapM (compile limits) = .ok (first :: rest) :=
      (mapM_bind hs (parse limits)).trans ht
    exact ⟨first, rest, _, mapM_eq_ok_iff.1 compiled, dominant_of_streams hs, rfl⟩

/-- The rule whose error counts: the first that is unreadable, or else the first that is not
parsed. -/
def firstFault? (limits : Limits) (rules : List String) : Option String :=
  (rules.find? (isUnreadable limits)).or (rules.find? fun rule => !(compile limits rule).isOk)

theorem mem_of_firstFault? {limits : Limits} {rules : List String} {rule : String}
    (h : firstFault? limits rules = some rule) : rule ∈ rules := by
  rcases Option.or_eq_some_iff.1 h with h | ⟨-, h⟩ <;> exact List.mem_of_find?_eq_some h

theorem exists_error_of_firstFault? {limits : Limits} {rules : List String} {rule : String}
    (h : firstFault? limits rules = some rule) : ∃ e, compile limits rule = .error e := by
  rcases Option.or_eq_some_iff.1 h with h | ⟨-, h⟩
  · have unreadable := List.find?_some h
    rw [isUnreadable_eq] at unreadable
    obtain ⟨e, he⟩ := not_isOk_iff.1 unreadable
    exact ⟨e, compile_of_tokensWithin he⟩
  · have failed := List.find?_some h
    exact not_isOk_iff.1 failed

theorem combine_eq_error_iff {limits : Limits} {rules : List String} (hne : rules ≠ [])
    {e : RuleError} : combine limits rules = .error e ↔
      ∃ rule, firstFault? limits rules = some rule ∧ compile limits rule = .error e := by
  have unreadable : isUnreadable limits = fun rule => !(tokensWithin limits rule).isOk :=
    funext (isUnreadable_eq limits)
  unfold firstFault?
  rw [unreadable]
  cases hs : rules.mapM (tokensWithin limits) with
  | error e' =>
    obtain ⟨rule, hfind, hrule⟩ := mapM_eq_error_iff.1 hs
    have stopped : combine limits rules = .error e' := by
      rw [combine, hs]
      rfl
    simp [stopped, hfind, compile_of_tokensWithin hrule]
  | ok streams =>
    rw [find?_eq_none_of_mapM hs, Option.none_or, ← mapM_eq_error_iff, combine_of_streams hs]
    cases ht : rules.mapM (compile limits) with
    | error e' => simp [bind, Except.bind]
    | ok trees =>
      cases trees with
      | nil => exact absurd (List.map_eq_nil_iff.1 (mapM_eq_ok_iff.1 ht)) hne
      | cons first rest => simp [bind, Except.bind, pure, Except.pure]

theorem combine_eq_emptyRuleSet_iff {limits : Limits} {rules : List String} :
    combine limits rules = .error .emptyRuleSet ↔ rules = [] := by
  constructor
  · intro h
    apply Decidable.byContradiction
    intro hne
    obtain ⟨rule, -, hrule⟩ := (combine_eq_error_iff hne).1 h
    exact compile_ne_emptyRuleSet limits rule hrule
  · rintro rfl
    rfl

theorem exists_combine_iff {limits : Limits} {rules : List String} (hne : rules ≠ []) :
    (∃ t, combine limits rules = .ok t) ↔ ∀ rule ∈ rules, ∃ t, compile limits rule = .ok t := by
  constructor
  · rintro ⟨t, ht⟩ rule hrule
    cases hc : rules.mapM (compile limits) with
    | ok trees =>
      have compiled := List.mem_map_of_mem (f := compile limits) hrule
      rw [mapM_eq_ok_iff.1 hc] at compiled
      obtain ⟨u, -, hu⟩ := List.mem_map.1 compiled
      exact ⟨u, hu.symm⟩
    | error e =>
      obtain ⟨bad, hfind, -⟩ := mapM_eq_error_iff.1 hc
      obtain ⟨first, hfirst⟩ : ∃ first, firstFault? limits rules = some first := by
        unfold firstFault?
        rw [hfind]
        cases rules.find? (isUnreadable limits) <;> exact ⟨_, rfl⟩
      obtain ⟨e', he'⟩ := exists_error_of_firstFault? hfirst
      rw [(combine_eq_error_iff hne).2 ⟨first, hfirst, he'⟩] at ht
      cases ht
  · intro h
    cases hc : combine limits rules with
    | ok t => exact ⟨t, rfl⟩
    | error e =>
      obtain ⟨first, hfirst, he⟩ := (combine_eq_error_iff hne).1 hc
      obtain ⟨t, ht⟩ := h first (mem_of_firstFault? hfirst)
      rw [he] at ht
      cases ht

/-- **Combination.** Rules combine just if there are any and each compiles, and then into the left
fold of their trees under the combinator that they use most. Of several errors the first one counts,
but an unreadable rule comes before all rules that are not parsed. -/
theorem combine_eq_compile_each (limits : Limits) (rules : List String) :
    (combine limits rules = .error .emptyRuleSet ↔ rules = []) ∧
    (rules ≠ [] →
      ((∃ t, combine limits rules = .ok t) ↔ ∀ rule ∈ rules, ∃ t, compile limits rule = .ok t) ∧
      ∀ e, combine limits rules = .error e ↔
        ∃ rule, firstFault? limits rules = some rule ∧ compile limits rule = .error e) ∧
    (∀ first rest, rules.map (compile limits) = (first :: rest).map .ok →
      ∃ kind, dominant rules = .ok kind ∧
        combine limits rules = .ok (rest.foldl (.operator kind) first)) ∧
    ∀ rule, combine limits [rule] = compile limits rule := by
  refine ⟨combine_eq_emptyRuleSet_iff, fun hne => ⟨exists_combine_iff hne, fun e =>
    combine_eq_error_iff hne⟩, fun first rest => combine_of_trees, fun rule => ?_⟩
  cases hc : compile limits rule with
  | ok t =>
    have compiled : [rule].map (compile limits) = [t].map .ok := congrArg (fun r => [r]) hc
    obtain ⟨kind, -, combined⟩ := combine_of_trees compiled
    exact combined
  | error e =>
    refine (combine_eq_error_iff (List.cons_ne_nil rule [])).2 ⟨rule, ?_, hc⟩
    cases hr : isUnreadable limits rule <;> simp [firstFault?, hr, hc, Except.isOk, Except.toBool]

/-- Two rules that compile, and three of which the last is unreadable: its error counts before that
of the second, which is not parsed. -/
theorem combine_eq_compile_each_ages :
    combine {} ["age > 18", "age < 65"] = .ok (.operator .and
      (.operand ⟨"age", .gt, .integer 18⟩) (.operand ⟨"age", .lt, .integer 65⟩)) ∧
    combine {} ["age > 18", "age >", "name = 'O"] = .error (.lex ⟨7, "'O"⟩) := by
  constructor
  · obtain ⟨kind, hkind, combined⟩ := (combine_eq_compile_each {} ["age > 18", "age < 65"]).2.2.1
      (.operand ⟨"age", .gt, .integer 18⟩) [.operand ⟨"age", .lt, .integer 65⟩] rfl
    cases hkind
    exact combined
  · have hne : ["age > 18", "age >", "name = 'O"] ≠ [] := List.cons_ne_nil _ _
    have first : firstFault? {} ["age > 18", "age >", "name = 'O"] = some "name = 'O" := by
      decide +kernel
    exact (((combine_eq_compile_each {} _).2.1 hne).2 _).2 ⟨_, first, rfl⟩

end RecordRules
