import RecordRules.Proofs.Combination
import RecordRules.Proofs.CompiledLiterals

/-!
# The combinator that rules use most

The keywords among the tokens of a rule are the operators of its tree, in the same order. So the
combinator that joins several rules is the one that most of their operators have, and it is the same
in whatever order the rules come.
-/

namespace RecordRules

/-! ## Keywords and operators -/

/-- The combinators of a tree from left to right. -/
def Tree.combinators : Tree → List Combinator
  | operand _ => []
  | operator kind left right => left.combinators ++ kind :: right.combinators

namespace Token

def Kind.combinator? : Kind → Option Combinator
  | combinator k => some k
  | _ => none

/-- The combinators among tokens. -/
def combinatorsOf (tokens : List Token) : List Combinator := tokens.filterMap (·.kind.combinator?)

theorem Kind.combinator?_eq_some_iff {kind : Kind} {k : Combinator} :
    kind.combinator? = some k ↔ kind = .combinator k := by
  cases kind <;> simp [combinator?]

end Token

/-- The combinator that most of them are; a tie goes to AND. -/
def majority (ks : List Combinator) : Combinator :=
  if ks.count .or ≤ ks.count .and then .and else .or

theorem majority_perm {ks ls : List Combinator} (h : ks.Perm ls) : majority ks = majority ls := by
  unfold majority
  rw [h.count_eq, h.count_eq]

theorem Parser.Derives.combinators_eq {part : Part} {ks : List Token.Kind} {t : Tree}
    (h : Derives part ks t) : ks.filterMap Token.Kind.combinator? = t.combinators := by
  induction h with
  -- A literal is a word or stands in quotes, so it is no keyword.
  | condition name c literal => cases literal <;> rfl
  | group inner ih => simpa [List.filterMap_cons, Token.Kind.combinator?] using ih
  | first only ih => exact ih
  | more kind left right ihl ihr => simp [Token.Kind.combinator?, Tree.combinators, ihl, ihr]

theorem exists_tokens_combinators {limits : Limits} {rule : String} {t : Tree}
    (h : compile limits rule = .ok t) :
    ∃ tokens, Token.tokenize rule = .ok tokens ∧ Token.combinatorsOf tokens = t.combinators := by
  obtain ⟨tokens, lexed, derived, -⟩ := exists_tokens_of_compile h
  refine ⟨tokens, lexed, ?_⟩
  rw [← derived.combinators_eq, List.filterMap_map]
  rfl

theorem dominantOf_eq_majority (tokens : List Token) :
    dominantOf tokens = majority (Token.combinatorsOf tokens) := by
  have counted (k : Combinator) :
      (Token.combinatorsOf tokens).count k = tokens.countP (·.kind = .combinator k) := by
    rw [Token.combinatorsOf, List.count_filterMap]
    refine List.countP_congr fun t _ => ?_
    simp [Token.Kind.combinator?_eq_some_iff]
  rw [majority, counted, counted]
  rfl

theorem dominant_of_tokens {rules : List String} {streams : List (List Token)}
    (h : rules.map Token.tokenize = streams.map .ok) :
    dominant rules = .ok (majority (streams.flatMap Token.combinatorsOf)) := by
  have split : rules.mapM (fun rule => (Token.tokenize rule).mapError RuleError.lex) =
      .ok streams := by
    have lexed := congrArg (List.map (Except.mapError RuleError.lex)) h
    rw [List.map_map, List.map_map] at lexed
    exact mapM_eq_ok_iff.2 lexed
  have all : Token.combinatorsOf streams.flatten = streams.flatMap Token.combinatorsOf := by
    rw [Token.combinatorsOf, List.filterMap_flatten]
    rfl
  rw [dominant, split, ← all, ← dominantOf_eq_majority]
  rfl

theorem exists_streams_of_trees {limits : Limits} {rules : List String} {trees : List Tree}
    (h : rules.map (compile limits) = trees.map .ok) :
    ∃ streams : List (List Token), rules.map Token.tokenize = streams.map .ok ∧
      streams.flatMap Token.combinatorsOf = trees.flatMap Tree.combinators := by
  induction rules generalizing trees with
  | nil =>
    obtain rfl : trees = [] := List.map_eq_nil_iff.1 h.symm
    exact ⟨[], rfl, rfl⟩
  | cons rule rules ih =>
    obtain ⟨t, trees, rfl, ht, rest⟩ := List.map_eq_cons_iff.1 h.symm
    obtain ⟨tokens, lexed, same⟩ := exists_tokens_combinators ht.symm
    obtain ⟨streams, hstreams, counted⟩ := ih rest.symm
    refine ⟨tokens :: streams, ?_, ?_⟩
    · rw [List.map_cons, lexed, hstreams, List.map_cons]
    · rw [List.flatMap_cons, List.flatMap_cons, same, counted]

theorem dominant_of_trees {limits : Limits} {rules : List String} {trees : List Tree}
    (h : rules.map (compile limits) = trees.map .ok) :
    dominant rules = .ok (majority (trees.flatMap Tree.combinators)) := by
  obtain ⟨streams, lexed, same⟩ := exists_streams_of_trees h
  rw [dominant_of_tokens lexed, same]

theorem dominant_perm {rules other : List String} (perm : rules.Perm other)
    {streams : List (List Token)} (h : rules.map Token.tokenize = streams.map .ok) :
    dominant other = dominant rules := by
  obtain ⟨streams', perm', h'⟩ := exists_perm_of_map_eq perm h
  rw [dominant_of_tokens h, dominant_of_tokens h', majority_perm (perm'.flatMap_right _)]

theorem combinators_foldl (k : Combinator) (first : Tree) (rest : List Tree) :
    (rest.foldl (.operator k) first).combinators =
      first.combinators ++ rest.flatMap fun u => k :: u.combinators := by
  induction rest generalizing first with
  | nil => simp
  | cons u rest ih => simp [ih, Tree.combinators]

/-! ## Keywords and lexemes -/

theorem Combinator.ofKeyword?_eq_some_iff {text : String} {k : Combinator} :
    ofKeyword? text = some k ↔ text = k.keyword := by
  constructor
  · intro h
    have same := List.find?_some h
    exact (beq_iff_eq.1 same).symm
  · rintro rfl
    exact ofKeyword?_keyword k

theorem Token.Taken.combinator?_eq {lexeme rest : List Char} {kind : Kind}
    (h : Taken lexeme rest kind) :
    kind.combinator? = Combinator.ofKeyword? (String.ofList lexeme) := by
  refine Option.ext fun k => ?_
  rw [Kind.combinator?_eq_some_iff, h.keyword, Combinator.ofKeyword?_eq_some_iff]
  constructor
  · rintro rfl
    exact String.ofList_toList
  · intro same
    rw [← same, String.toList_ofList]

theorem Token.Splits.combinatorsOf_eq {offset : Nat} {cs : List Char} {tokens : List Token}
    {pieces : List (List Char × List Char)} {last : List Char}
    (h : Splits Taken offset cs tokens pieces last) :
    combinatorsOf tokens =
      pieces.filterMap fun piece => Combinator.ofKeyword? (String.ofList piece.2) := by
  induction h with
  | last white => rfl
  | piece white hne taken after ih =>
    rw [combinatorsOf] at ih ⊢
    rw [List.filterMap_cons, List.filterMap_cons, taken.combinator?_eq, ih]

/-- **Majority.** What joins the trees of several rules is the combinator that most operators of
these trees have, with a tie to AND, and it is the kind of every operator that joins them. It is the
same for the rules in another order. Of a text only those lexemes count that are a keyword, not what
is in quotes or in a longer word, and no sign. -/
theorem dominant_majority (rules : List String) :
    (∀ limits (trees : List Tree), rules.map (compile limits) = trees.map .ok →
      dominant rules = .ok (majority (trees.flatMap Tree.combinators))) ∧
    (∀ limits t, combine limits rules = .ok t → ∃ first rest kind,
      rules.map (compile limits) = (first :: rest).map .ok ∧ dominant rules = .ok kind ∧
      t = rest.foldl (.operator kind) first ∧
      t.combinators = first.combinators ++ rest.flatMap fun u => kind :: u.combinators) ∧
    (∀ other, rules.Perm other → (∀ rule ∈ rules, ∃ tokens, Token.tokenize rule = .ok tokens) →
      ∃ kind, dominant rules = .ok kind ∧ dominant other = .ok kind) ∧
    (∀ streams : List (List Token), rules.map Token.tokenize = streams.map .ok →
      dominant rules = .ok (majority (streams.flatMap Token.combinatorsOf))) ∧
    ∀ rule ∈ rules, ∀ tokens, Token.tokenize rule = .ok tokens → ∃ pieces last,
      Token.Splits Token.Taken 0 rule.toList tokens pieces last ∧
      Token.combinatorsOf tokens =
        pieces.filterMap fun piece => Combinator.ofKeyword? (String.ofList piece.2) := by
  refine ⟨fun limits trees => dominant_of_trees, fun limits t h => ?_, fun other perm lexed => ?_,
    fun streams => dominant_of_tokens, fun rule _ tokens lexed => ?_⟩
  · obtain ⟨first, rest, kind, compiled, hkind, rfl⟩ := exists_trees_of_combine h
    exact ⟨first, rest, kind, compiled, hkind, rfl, combinators_foldl kind first rest⟩
  · obtain ⟨streams, h⟩ := exists_map_eq_ok_iff.2 lexed
    exact ⟨_, dominant_of_tokens h, (dominant_perm perm h).trans (dominant_of_tokens h)⟩
  · obtain ⟨pieces, last, taken⟩ := Token.exists_splits lexed
    exact ⟨pieces, last, taken, taken.combinatorsOf_eq⟩

/-- Two rules with one OR, in both orders, and tokens that are no rules: AND in quotes, in a longer
word and as a sign does not count. -/
theorem dominant_majority_or :
    let rules := ["ANDY > 1 OR b = 'AND'", "c = AND_2"]
    let trees : List Tree := [.operator .or (.operand ⟨"ANDY", .gt, .integer 1⟩)
      (.operand ⟨"b", .eq, .string "AND"⟩), .operand ⟨"c", .eq, .string "AND_2"⟩]
    let streams : List (List Token) := [[⟨.word "a", 0⟩, ⟨.doubleAmpersand, 2⟩, ⟨.word "b", 5⟩],
      [⟨.quoted "'AND'", 0⟩, ⟨.combinator .or, 6⟩]]
    rules.map (compile {}) = trees.map .ok ∧ dominant rules = .ok .or ∧
      dominant rules.reverse = .ok .or ∧
      ["a && b", "'AND' OR"].map Token.tokenize = streams.map .ok ∧
      dominant ["a && b", "'AND' OR"] = .ok .or := by
  intro rules trees streams
  have compiled : rules.map (compile {}) = trees.map .ok := rfl
  have lexed : ["a && b", "'AND' OR"].map Token.tokenize = streams.map .ok := rfl
  obtain ⟨majorities, -, reordered, -⟩ := dominant_majority rules
  have most : dominant rules = .ok .or := majorities {} trees compiled
  have readable : ∀ rule ∈ rules, ∃ tokens, Token.tokenize rule = .ok tokens := by
    obtain ⟨ts, hts, -⟩ := exists_streams_of_trees compiled
    exact exists_map_eq_ok_iff.1 ⟨ts, hts⟩
  obtain ⟨kind, hkind, same⟩ := reordered rules.reverse rules.reverse_perm.symm readable
  obtain rfl : kind = .or := Except.ok.inj (hkind.symm.trans most)
  exact ⟨compiled, most, same, lexed, (dominant_majority _).2.2.2.1 streams lexed⟩

end RecordRules
