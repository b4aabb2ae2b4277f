import RecordRules.Proofs.Admission
import RecordRules.Proofs.RaisedLimits

/-!
# One cache for different limits

A cache knows a rule by its text alone, so limits that refuse a text can be answered with the tree
that other limits made of it. The tree is the right one under all limits that accept the text, since
they make the same tree of it.
-/

namespace RecordRules

namespace Cache

/-! ## Requests since the last clearing -/

def sinceCleared (history : List Request) : List Request := history.rtakeWhile (· != .clear)

theorem sinceCleared_fetch (history : List Request) (limits : Limits) (text : String) :
    sinceCleared (history ++ [.fetch limits text]) =
      sinceCleared history ++ [.fetch limits text] := by
  unfold sinceCleared
  simp

/-- Limits under which one of the requests fetches the text make the tree of it. -/
def MadeIn (requests : List Request) (text : String) (tree : Tree) : Prop :=
  ∃ used, .fetch used text ∈ requests ∧ compile used text = .ok tree

/-! ## What a shared cache holds -/

theorem Holds.mono {P Q : String → Tree → Prop} {c : Cache} (h : c.Holds P)
    (imp : ∀ text tree, P text tree → Q text tree) : c.Holds Q := by
  intro entry hentry
  exact imp _ _ (h entry hentry)

theorem perform_fetch_cache (c : Cache) (limits : Limits) (text : String) :
    (c.perform (.fetch limits text)).2 = (c.fetch limits text).2 := by
  simp only [perform]
  split <;> simp [*]

theorem Holds.perform {history : List Request} {c : Cache}
    (h : c.Holds (MadeIn (sinceCleared history))) (request : Request) :
    (c.perform request).2.Holds (MadeIn (sinceCleared (history ++ [request]))) := by
  cases request with
  | clear => exact holds_clear _ c
  | fetch limits text =>
    rw [perform_fetch_cache, sinceCleared_fetch]
    apply Holds.fetch
    · refine Holds.mono h ?_
      rintro text' tree ⟨used, hused, made⟩
      exact ⟨used, by simp [hused], made⟩
    · intro tree made
      exact ⟨limits, by simp, made⟩

theorem holds_after (capacity : UInt64) (history : List Request) :
    ((empty capacity).after history).Holds (MadeIn (sinceCleared history)) := by
  induction history using List.reverseRecOn with
  | nil => exact holds_empty _ capacity
  | append_singleton history request ih =>
    rw [after_append]
    exact ih.perform request

/-- A refused text is not in the cache, and it is compiled in vain. -/
theorem refused_of_fetch {c : Cache} {limits : Limits} {text : String} {e : RuleError}
    (h : (c.fetch limits text).1 = .error e) : compile limits text = .error e ∧ text ∉ c.texts := by
  rcases c.fetch_cases limits text with ⟨rule, -, hf⟩ | ⟨tree, -, -, hf⟩ | ⟨e', new, refused, hf⟩
  · simp [hf] at h
  · simp [hf] at h
  · obtain rfl : e' = e := by simpa [hf] using h
    exact ⟨refused, get?_eq_none_iff.1 new⟩

/-- **Shared cache.** Whatever was asked of a cache, and with whatever limits, a text is answered
with the tree that all limits make of it that accept it, and some do: those asked with now, or those
of a request for it since the cache was cleared. An error is the compiler's own for a text that is
not in the cache, which stays as it is. -/
theorem fetch_shared (capacity : UInt64) (history : List Request) (limits : Limits)
    (text : String) :
    let c := (empty capacity).after history
    (∀ rule, (c.fetch limits text).1 = .ok rule →
      (∀ other t, compile other text = .ok t → rule.tree = t ∧ rule.tree.sameTree t) ∧
      ∃ used, (used = limits ∨ .fetch used text ∈ sinceCleared history) ∧
        compile used text = .ok rule.tree) ∧
    ∀ e, (c.fetch limits text).1 = .error e →
      compile limits text = .error e ∧ text ∉ c.texts ∧ (c.fetch limits text).2 = c := by
  intro c
  constructor
  · intro rule h
    have accepted : ∃ used, (used = limits ∨ .fetch used text ∈ sinceCleared history) ∧
        compile used text = .ok rule.tree := by
      rcases c.fetch_cases limits text with ⟨cached, hget, hf⟩ | ⟨tree, -, made, hf⟩ | ⟨e, -, -, hf⟩
      · obtain rfl : cached = rule := by simpa [hf] using h
        obtain ⟨used, hused, made⟩ := (holds_after capacity history).get hget
        exact ⟨used, .inr hused, made⟩
      · obtain rfl : ⟨c.made, tree⟩ = rule := by simpa [hf] using h
        exact ⟨limits, .inl rfl, made⟩
      · simp [hf] at h
    refine ⟨?_, accepted⟩
    intro other t ht
    obtain ⟨used, -, made⟩ := accepted
    obtain rfl := compile_unique made ht
    exact ⟨rfl, sameTree_self_of_compile made⟩
  · intro e h
    obtain ⟨refused, new⟩ := refused_of_fetch h
    exact ⟨refused, new, by rw [fetch_of_error h]⟩

/-- Limits without parentheses are answered with the tree of wider ones, and refused when the cache
has been cleared. -/
theorem fetch_shared_strict :
    let text := "(a > 1)"
    let strict : Limits := { maxNestingDepth := 0 }
    let wide := (empty 1).after [.fetch {} text]
    let cleared := (empty 1).after [.fetch {} text, .clear]
    (∃ rule, (wide.fetch strict text).1 = .ok rule ∧ compile {} text = .ok rule.tree) ∧
      ∃ e, compile strict text = .error e ∧ text ∉ cleared.texts ∧
        (cleared.fetch strict text).2 = cleared := by
  intro text strict wide cleared
  have tree : compile {} text = .ok (.operand ⟨"a", .gt, .integer 1⟩) :=
    Token.eq_ok_of_toOption (by decide +kernel)
  have kept : ((wide.fetch strict text).1.toOption).isSome := by decide +kernel
  have refused : ((cleared.fetch strict text).1.toOption).isNone := by decide +kernel
  constructor
  · cases h : (wide.fetch strict text).1 with
    | error e => simp [h, Except.toOption] at kept
    | ok rule =>
      obtain ⟨same, -⟩ := (fetch_shared 1 [.fetch {} text] strict text).1 rule h
      exact ⟨rule, rfl, (same {} _ tree).1 ▸ tree⟩
  · cases h : (cleared.fetch strict text).1 with
    | ok rule => simp [h, Except.toOption] at refused
    | error e => exact ⟨e, (fetch_shared 1 [.fetch {} text, .clear] strict text).2 e h⟩

end Cache

end RecordRules
