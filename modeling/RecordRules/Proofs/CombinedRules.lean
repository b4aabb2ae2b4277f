import RecordRules.Proofs.Regrouping

/-!
# What combined rules say of a record

A combination says what its rules say one after the other: the error of the first rule that has one,
or else whether all of them are met, or any. So the order of the rules decides only which error
comes first.
-/

namespace RecordRules

theorem Tree.evaluate_foldl {k : Combinator} {record : Json} {t : Tree} {row : List Tree}
    (h : t.evaluate record = k.overall (·.evaluate record) row) (rest : List Tree) :
    (rest.foldl (.operator k) t).evaluate record =
      k.overall (·.evaluate record) (row ++ rest) := by
  induction rest generalizing t row with
  | nil => rw [List.append_nil, List.foldl_nil, h]
  | cons u rest ih =>
    have one : (operator k t u).evaluate record =
        k.overall (·.evaluate record) (row ++ [u]) := by
      rw [Combinator.overall_append, Combinator.overall_singleton, ← h]
      rfl
    rw [List.foldl_cons, ih one, List.append_assoc, List.singleton_append]

/-- Rules that compile are combined, and evaluated one after the other. -/
theorem exists_combine_evaluate {limits : Limits} {rules : List String} {trees : List Tree}
    (hne : trees ≠ []) (h : rules.map (compile limits) = trees.map .ok) :
    ∃ t, combine limits rules = .ok t ∧ ∃ kind, dominant rules = .ok kind ∧
      ∀ record, t.evaluate record = kind.overall (·.evaluate record) trees := by
  obtain ⟨first, rest, rfl⟩ := List.exists_cons_of_ne_nil hne
  obtain ⟨kind, hkind, combined⟩ := combine_of_trees h
  refine ⟨_, combined, kind, hkind, fun record => ?_⟩
  exact Tree.evaluate_foldl (kind.overall_singleton _ first).symm rest

/-- **Combined rules.** Rules that are combined say of a record the error of the first of them that
has one; if none has, they say whether all of them are met, or any, by the combinator that they use
most, and say the same in any other order. -/
theorem evaluate_combined {limits : Limits} {rules : List String} {t : Tree}
    (h : combine limits rules = .ok t) (record : Json) :
    ∃ trees kind, rules.map (compile limits) = trees.map .ok ∧ dominant rules = .ok kind ∧
      (∀ e, t.evaluate record = .error e ↔
        ∃ u, trees.find? (fun u => !(u.evaluate record).isOk) = some u ∧
          u.evaluate record = .error e) ∧
      ((∀ u ∈ trees, ∃ b, u.evaluate record = .ok b) →
        (∃ b, t.evaluate record = .ok b) ∧
        (t.evaluate record = .ok true ↔ kind.Over (·.evaluate record = .ok true) trees) ∧
        ∀ other, rules.Perm other →
          ∃ t', combine limits other = .ok t' ∧ t'.evaluate record = t.evaluate record) := by
  obtain ⟨first, rest, -, compiled, -⟩ := exists_trees_of_combine h
  have hne : first :: rest ≠ [] := List.cons_ne_nil first rest
  generalize first :: rest = trees at compiled hne
  obtain ⟨t', combined, kind, hkind, said⟩ := exists_combine_evaluate hne compiled
  obtain rfl : t' = t := Except.ok.inj (combined.symm.trans h)
  refine ⟨trees, kind, compiled, hkind, fun e => ?_, fun passed => ⟨?_, ?_, fun other perm => ?_⟩⟩
  · rw [said, Combinator.overall_eq_error_iff]
  · obtain ⟨bs, hbs⟩ := exists_map_eq_ok_iff.2 passed
    exact ⟨_, (said record).trans (Combinator.overall_of_map_eq hbs)⟩
  · rw [said, Combinator.overall_eq_true_iff passed]
  · obtain ⟨trees', perm', compiled'⟩ := exists_perm_of_map_eq perm compiled
    have hne' : trees' ≠ [] := by
      rintro rfl
      exact hne perm'.eq_nil
    obtain ⟨u, combined', kind', hkind', said'⟩ := exists_combine_evaluate hne' compiled'
    obtain ⟨streams, lexed, -⟩ := exists_streams_of_trees compiled
    obtain rfl : kind' = kind :=
      Except.ok.inj (hkind'.symm.trans ((dominant_perm perm lexed).trans hkind))
    exact ⟨u, combined', by rw [said, said', Combinator.overall_perm perm' passed]⟩

/-- Two rules under OR, in both orders: on a record that lacks a field of the second rule, and on one
that meets the second rule only. -/
theorem evaluate_combined_orders :
    let rules := ["a > 1", "b = x OR c = 2"]
    let t : Tree := .operator .or (.operand ⟨"a", .gt, .integer 1⟩)
      (.operator .or (.operand ⟨"b", .eq, .string "x"⟩) (.operand ⟨"c", .eq, .integer 2⟩))
    let part : Json := .object [("a", .number (.ofInt64 3)), ("b", .string "x")]
    let whole : Json := .object [("a", .number (.ofInt64 0)), ("b", .string "x"),
      ("c", .number (.ofInt64 1))]
    combine {} rules = .ok t ∧ t.evaluate part = .error (.fieldNotFound "c") ∧
      t.evaluate whole = .ok true ∧
      ∃ t', combine {} rules.reverse = .ok t' ∧ t'.evaluate whole = .ok true := by
  intro rules t part whole
  have combined : combine {} rules = .ok t := rfl
  let trees : List Tree := [.operand ⟨"a", .gt, .integer 1⟩, .operator .or
    (.operand ⟨"b", .eq, .string "x"⟩) (.operand ⟨"c", .eq, .integer 2⟩)]
  have known : rules.map (compile {}) = trees.map .ok := rfl
  have unique {us : List Tree} (h : rules.map (compile {}) = us.map .ok) : trees = us :=
    List.map_injective_iff.2 (fun _ _ => Except.ok.inj) (known.symm.trans h)
  obtain ⟨us, kind, compiled, -, failing, -⟩ := evaluate_combined combined part
  obtain rfl := unique compiled
  obtain ⟨vs, kind, compiled, hkind, -, passing⟩ := evaluate_combined combined whole
  obtain rfl := unique compiled
  obtain rfl : .or = kind := Except.ok.inj hkind
  have results : ∀ u ∈ trees, ∃ b, u.evaluate whole = .ok b :=
    exists_map_eq_ok_iff.1 ⟨[false, true], rfl⟩
  obtain ⟨-, met, reordered⟩ := passing results
  have holds : t.evaluate whole = .ok true := met.2 ⟨trees[1], by simp [trees], rfl⟩
  obtain ⟨t', combined', same⟩ := reordered rules.reverse rules.reverse_perm.symm
  exact ⟨combined, (failing _).2 ⟨trees[1], rfl, rfl⟩, holds, t', combined', same.trans holds⟩

end RecordRules
