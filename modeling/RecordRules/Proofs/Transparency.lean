import RecordRules.Engine

/-!
# The cache is not seen in answers

Every tree in the cache is one that a compilation of its text gave, so what a cached engine answers
is what an engine without a cache answers, but for which objects are the same.
-/

namespace RecordRules

/-! ## What a cache holds -/

namespace Cache

/-- All entries of a cache are texts with trees that they are related to. -/
def Holds (P : String → Tree → Prop) (c : Cache) : Prop :=
  ∀ entry ∈ c.entries, P entry.1 entry.2.tree

theorem holds_empty (P : String → Tree → Prop) (capacity : UInt64) : (empty capacity).Holds P :=
  fun _ h => absurd h List.not_mem_nil

theorem holds_clear (P : String → Tree → Prop) (c : Cache) : c.clear.Holds P :=
  fun _ h => absurd h List.not_mem_nil

theorem Holds.keep {P : String → Tree → Prop} {c : Cache} (h : c.Holds P) {text : String}
    {rule : Compiled} (hrule : P text rule.tree) : (c.keep text rule).Holds P := by
  intro entry hentry
  simp only [Cache.keep] at hentry
  split at hentry
  · rcases List.mem_append.1 hentry with hentry | hentry
    · exact h entry hentry
    · obtain rfl := List.mem_singleton.1 hentry
      exact hrule
  · exact h entry hentry

theorem Holds.get {P : String → Tree → Prop} {c : Cache} (h : c.Holds P) {text : String}
    {rule : Compiled} (hget : c.get? text = some rule) : P text rule.tree := by
  obtain ⟨before, after, hentries, -⟩ := List.lookup_eq_some_iff.1 hget
  exact h (text, rule) (by simp [hentries])

theorem fetch_cases (c : Cache) (limits : Limits) (text : String) :
    (∃ rule, c.get? text = some rule ∧ c.fetch limits text = (.ok rule, c)) ∨
    (∃ tree, c.get? text = none ∧ compile limits text = .ok tree ∧
      c.fetch limits text = (.ok ⟨c.made, tree⟩, c.keep text ⟨c.made, tree⟩)) ∨
    (∃ e, c.get? text = none ∧ compile limits text = .error e ∧
      c.fetch limits text = (.error e, c)) := by
  unfold fetch
  cases hget : c.get? text with
  | some rule => exact .inl ⟨rule, rfl, rfl⟩
  | none =>
    cases hcompile : compile limits text with
    | ok tree => exact .inr (.inl ⟨tree, rfl, rfl, rfl⟩)
    | error e => exact .inr (.inr ⟨e, rfl, rfl, rfl⟩)

theorem Holds.fetch {P : String → Tree → Prop} {c : Cache} (h : c.Holds P) {limits : Limits}
    {text : String} (hcompile : ∀ tree, compile limits text = .ok tree → P text tree) :
    (c.fetch limits text).2.Holds P := by
  rcases c.fetch_cases limits text with ⟨rule, -, hf⟩ | ⟨tree, -, htree, hf⟩ | ⟨e, -, -, hf⟩
  · rw [hf]
    exact h
  · rw [hf]
    exact h.keep (hcompile tree htree)
  · rw [hf]
    exact h

/-- A cache of what these limits compile answers as the compiler does. -/
theorem fetch_tree_eq_compile {c : Cache} {limits : Limits}
    (h : c.Holds fun text tree => compile limits text = .ok tree) (text : String) :
    (c.fetch limits text).1.map (·.tree) = compile limits text := by
  rcases c.fetch_cases limits text with ⟨rule, hget, hf⟩ | ⟨tree, -, htree, hf⟩ | ⟨e, -, he, hf⟩
  · rw [hf, h.get hget]
    rfl
  · rw [hf, htree]
    rfl
  · rw [hf, he]
    rfl

end Cache

/-! ## Runs of an engine -/

/-- An answer without the identity of the compiled rule. -/
def Answer.plain : Answer → Answer
  | .compiled result => .tree (result.map (·.tree))
  | answer => answer

/-- What an engine without a cache answers. -/
def Command.answer (limits : Limits) : Command → Answer
  | .compile text => .tree (RecordRules.compile limits text)
  | .fetch text => .tree (RecordRules.compile limits text)
  | .combine rules => .tree (RecordRules.combine limits rules)
  | .evaluate tree record => .verdict ((tree.evaluate record).mapError .evaluation)
  | .check text record => .verdict ((RecordRules.compile limits text).bind fun tree =>
      (tree.evaluate record).mapError .evaluation)
  | .clear => .cleared

namespace Engine

def answers (e : Engine) : List Command → List Answer
  | [] => []
  | command :: commands => (e.perform command).1 :: (e.perform command).2.answers commands

def after (e : Engine) (commands : List Command) : Engine :=
  commands.foldl (fun e command => (e.perform command).2) e

structure Faithful (limits : Limits) (e : Engine) : Prop where
  limits_eq : e.limits = limits
  holds : e.cache.Holds fun text tree => compile limits text = .ok tree

theorem faithful_of_create {limits : Limits} {e : Engine} (h : create limits = .ok e) :
    Faithful limits e := by
  cases hv : limits.validate with
  | error fault =>
    rw [create, hv] at h
    cases h
  | ok _ =>
    rw [create, hv] at h
    cases h
    exact ⟨rfl, Cache.holds_empty _ _⟩

theorem Faithful.perform {limits : Limits} {e : Engine} (h : Faithful limits e)
    (command : Command) : Faithful limits (e.perform command).2 := by
  obtain ⟨rfl, holds⟩ := h
  cases command with
  | fetch text => exact ⟨rfl, holds.fetch fun _ => id⟩
  | check text record => exact ⟨rfl, holds.fetch fun _ => id⟩
  | clear => exact ⟨rfl, Cache.holds_clear _ _⟩
  | _ => exact ⟨rfl, holds⟩

theorem Faithful.fetch {limits : Limits} {e : Engine} (h : Faithful limits e) (text : String) :
    (e.fetch text).1.map (·.tree) = compile limits text := by
  obtain ⟨rfl, holds⟩ := h
  exact Cache.fetch_tree_eq_compile holds text

theorem Faithful.check {limits : Limits} {e : Engine} (h : Faithful limits e) (text : String)
    (record : Json) :
    (e.check text record).1 = (compile limits text).bind fun tree =>
      (tree.evaluate record).mapError .evaluation := by
  rw [← h.fetch text]
  simp only [Engine.check]
  cases (e.fetch text).1 <;> rfl

theorem Faithful.plain_answer {limits : Limits} {e : Engine} (h : Faithful limits e)
    (command : Command) : (e.perform command).1.plain = command.answer limits := by
  cases command with
  | compile text => exact congrArg (fun l => Answer.tree (compile l text)) h.limits_eq
  | fetch text => exact congrArg Answer.tree (h.fetch text)
  | combine rules => exact congrArg (fun l => Answer.tree (combine l rules)) h.limits_eq
  | evaluate tree record => rfl
  | check text record => exact congrArg Answer.verdict (h.check text record)
  | clear => rfl

theorem Faithful.after {limits : Limits} {e : Engine} (h : Faithful limits e)
    (commands : List Command) : Faithful limits (e.after commands) := by
  induction commands generalizing e with
  | nil => exact h
  | cons command commands ih => exact ih (h.perform command)

theorem Faithful.plain_answers {limits : Limits} {e : Engine} (h : Faithful limits e)
    (commands : List Command) :
    (e.answers commands).map Answer.plain = commands.map (Command.answer limits) := by
  induction commands generalizing e with
  | nil => rfl
  | cons command commands ih =>
    rw [answers, List.map_cons, h.plain_answer command, ih (h.perform command), List.map_cons]

/-- **Transparency.** Whatever an engine was asked before, it answers as one without a cache; and
only a fetch, a check and a clearing change what is in the cache. -/
theorem answers_eq_uncached {limits : Limits} {e : Engine} (h : create limits = .ok e)
    (history : List Command) :
    (e.answers history).map Answer.plain = history.map (Command.answer limits) ∧
    (∀ text, ((e.after history).fetch text).1.map (·.tree) = compile limits text) ∧
    (∀ text record, ((e.after history).check text record).1 =
      (compile limits text).bind fun tree => (tree.evaluate record).mapError .evaluation) ∧
    (∀ text, ((e.after history).perform (.compile text)).2.cache = (e.after history).cache) ∧
    (∀ rules, ((e.after history).perform (.combine rules)).2.cache = (e.after history).cache) ∧
    ∀ tree record, ((e.after history).perform (.evaluate tree record)).2.cache =
      (e.after history).cache := by
  have start := faithful_of_create h
  have now := start.after history
  exact ⟨start.plain_answers history, now.fetch, now.check, fun _ => rfl, fun _ => rfl,
    fun _ _ => rfl⟩

/-- An engine that keeps one rule, asked for two texts, one of which does not compile. -/
theorem answers_eq_uncached_small :
    let limits : Limits := { cacheCapacity := 1 }
    let history : List Command := [.fetch "age > 30", .fetch "age >", .check "age > 30" .null, .clear]
    create limits = .ok (ofLimits limits) ∧
      ((ofLimits limits).answers history).map Answer.plain = history.map (Command.answer limits) :=
  ⟨rfl, (answers_eq_uncached rfl _).1⟩

end Engine

end RecordRules
