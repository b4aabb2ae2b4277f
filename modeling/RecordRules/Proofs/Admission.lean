import Mathlib.Data.List.DropRight
import Mathlib.Data.List.Induction
import RecordRules.Proofs.Transparency

/-!
# Which rules a cache keeps

The texts in a cache are the first ones that were answered since it was cleared, in the order in
which they came, up to its capacity. No text makes room for another one.
-/

namespace RecordRules

namespace Cache

/-! ## Histories -/

/-- What a cache is asked to do; each fetch has its own limits. -/
inductive Request
  | fetch (limits : Limits) (text : String)
  | clear
  deriving DecidableEq

/-- What came of a request. -/
inductive Event
  | answered (text : String) (rule : Compiled)
  | refused (text : String) (e : RuleError)
  | cleared

def perform (c : Cache) : Request → Event × Cache
  | .fetch limits text =>
    match c.fetch limits text with
    | (.ok rule, c) => (.answered text rule, c)
    | (.error e, c) => (.refused text e, c)
  | .clear => (.cleared, c.clear)

def after (c : Cache) (history : List Request) : Cache :=
  history.foldl (fun c request => (c.perform request).2) c

def events (c : Cache) : List Request → List Event
  | [] => []
  | request :: history => (c.perform request).1 :: (c.perform request).2.events history

def Event.isCleared : Event → Bool
  | cleared => true
  | _ => false

def Event.answered? : Event → Option String
  | answered text _ => some text
  | _ => none

/-- The texts that were answered since the last clearing, in the order of their first answers. -/
def answeredTexts (es : List Event) : List String :=
  ((es.rtakeWhile fun e => !e.isCleared).filterMap Event.answered?).eraseDups

theorem after_append (c : Cache) (history later : List Request) :
    c.after (history ++ later) = (c.after history).after later := List.foldl_append

theorem events_append (c : Cache) (history later : List Request) :
    c.events (history ++ later) = c.events history ++ (c.after history).events later := by
  induction history generalizing c with
  | nil => rfl
  | cons request history ih =>
    rw [List.cons_append, events, ih]
    rfl

theorem perform_fetch_cases (c : Cache) (limits : Limits) (text : String) :
    (∃ rule, c.get? text = some rule ∧
      c.perform (.fetch limits text) = (.answered text rule, c)) ∨
    (∃ rule, c.get? text = none ∧
      c.perform (.fetch limits text) = (.answered text rule, c.keep text rule)) ∨
    (∃ e, c.perform (.fetch limits text) = (.refused text e, c)) := by
  simp only [perform]
  rcases c.fetch_cases limits text with ⟨rule, hget, hf⟩ | ⟨tree, hget, -, hf⟩ | ⟨e, -, -, hf⟩
  · rw [hf]
    exact .inl ⟨rule, hget, rfl⟩
  · rw [hf]
    exact .inr (.inl ⟨_, hget, rfl⟩)
  · rw [hf]
    exact .inr (.inr ⟨e, rfl⟩)

/-! ## Answered texts -/

theorem answeredTexts_cleared (es : List Event) : answeredTexts (es ++ [.cleared]) = [] := by
  rw [answeredTexts, List.rtakeWhile_concat_neg _ _ _ (by simp [Event.isCleared])]
  rfl

theorem answeredTexts_refused (es : List Event) (text : String) (e : RuleError) :
    answeredTexts (es ++ [.refused text e]) = answeredTexts es := by
  rw [answeredTexts, List.rtakeWhile_concat_pos _ _ _ rfl, List.filterMap_append]
  exact congrArg List.eraseDups (List.append_nil _)

theorem eraseDups_concat (texts : List String) (text : String) : (texts ++ [text]).eraseDups =
    if text ∈ texts.eraseDups then texts.eraseDups else texts.eraseDups ++ [text] := by
  have one : [text].eraseDups = [text] := List.eraseDups_cons
  by_cases known : text ∈ texts <;>
    simp [List.eraseDups_append, List.removeAll, List.mem_eraseDups, known, one]

theorem answeredTexts_answered (es : List Event) (text : String) (rule : Compiled) :
    answeredTexts (es ++ [.answered text rule]) =
      if text ∈ answeredTexts es then answeredTexts es else answeredTexts es ++ [text] := by
  have one : List.filterMap Event.answered? [.answered text rule] = [text] := rfl
  rw [answeredTexts, List.rtakeWhile_concat_pos _ _ _ rfl, List.filterMap_append, one,
    eraseDups_concat, answeredTexts]

/-! ## Kept texts -/

def texts (c : Cache) : List String := c.entries.map (·.1)

theorem length_texts (c : Cache) : c.texts.length = c.size := List.length_map _

theorem get?_eq_none_iff {c : Cache} {text : String} : c.get? text = none ↔ text ∉ c.texts := by
  rw [get?, List.lookup_eq_none_iff, texts, List.mem_map]
  constructor
  · rintro absent ⟨entry, hentry, rfl⟩
    simpa using absent entry hentry
  · intro absent entry hentry
    simpa using fun same : text = entry.1 => absent ⟨entry, hentry, same.symm⟩

theorem texts_keep (c : Cache) (text : String) (rule : Compiled) : (c.keep text rule).texts =
    if c.size < c.capacity.toNat then c.texts ++ [text] else c.texts := by
  unfold texts keep
  split <;> simp

theorem capacity_perform (c : Cache) (request : Request) :
    (c.perform request).2.capacity = c.capacity := by
  cases request with
  | clear => rfl
  | fetch limits text =>
    rcases c.perform_fetch_cases limits text with ⟨rule, -, h⟩ | ⟨rule, -, h⟩ | ⟨e, h⟩
    · rw [h]
    · rw [h]
      rfl
    · rw [h]

/-- A cache of the first of these texts, as many as it has room for. -/
def KeepsFirst (c : Cache) (answered : List String) : Prop :=
  c.texts = answered.take c.capacity.toNat

/-- A text that is new in the cache comes after all that are kept, where there is room, and so it
was not answered before; where there is none, it is beyond those that are kept. -/
theorem KeepsFirst.keep {c : Cache} {answered : List String} (h : c.KeepsFirst answered)
    {text : String} (new : text ∉ c.texts) (rule : Compiled) :
    (c.keep text rule).KeepsFirst (if text ∈ answered then answered else answered ++ [text]) := by
  have capacity : (c.keep text rule).capacity = c.capacity := rfl
  have size := c.length_texts
  rw [KeepsFirst] at h ⊢
  rw [h, List.length_take] at size
  rw [capacity, texts_keep]
  by_cases room : c.size < c.capacity.toNat
  · have all : answered.take c.capacity.toNat = answered := List.take_of_length_le (by omega)
    rw [all] at h
    rw [h] at new
    rw [if_pos room, if_neg new, h, List.take_of_length_le (by simp; omega)]
  · have full : c.capacity.toNat ≤ answered.length := by omega
    rw [if_neg room, h]
    split
    · rfl
    · rw [List.take_append_of_le_length full]

theorem KeepsFirst.perform {c : Cache} {es : List Event} (h : c.KeepsFirst (answeredTexts es))
    (request : Request) :
    (c.perform request).2.KeepsFirst (answeredTexts (es ++ [(c.perform request).1])) := by
  cases request with
  | clear =>
    have cleared : c.perform .clear = (.cleared, c.clear) := rfl
    rw [cleared, answeredTexts_cleared]
    exact (List.take_nil ..).symm
  | fetch limits text =>
    rcases c.perform_fetch_cases limits text with ⟨rule, hget, hf⟩ | ⟨rule, hget, hf⟩ | ⟨e, hf⟩
    · have kept : text ∈ c.texts := by
        apply Decidable.byContradiction
        intro new
        rw [get?_eq_none_iff.2 new] at hget
        cases hget
      have known : text ∈ answeredTexts es := by
        rw [h] at kept
        exact List.mem_of_mem_take kept
      rw [hf, answeredTexts_answered, if_pos known]
      exact h
    · rw [hf, answeredTexts_answered]
      exact h.keep (get?_eq_none_iff.1 hget) rule
    · rw [hf, answeredTexts_refused]
      exact h

theorem keepsFirst_after (capacity : UInt64) (history : List Request) :
    ((empty capacity).after history).KeepsFirst
      (answeredTexts ((empty capacity).events history)) := by
  induction history using List.reverseRecOn with
  | nil => exact (List.take_nil ..).symm
  | append_singleton history request ih =>
    rw [after_append, events_append]
    exact ih.perform request

theorem capacity_after (c : Cache) (history : List Request) :
    (c.after history).capacity = c.capacity := by
  induction history generalizing c with
  | nil => rfl
  | cons request history ih => exact (ih _).trans (c.capacity_perform request)

/-! ## Entries that stay -/

theorem entries_prefix_keep (c : Cache) (text : String) (rule : Compiled) :
    c.entries <+: (c.keep text rule).entries := by
  unfold keep
  split
  · exact List.prefix_append ..
  · exact List.prefix_refl _

theorem entries_keep_of_full {c : Cache} (full : c.size = c.capacity.toNat) (text : String)
    (rule : Compiled) : (c.keep text rule).entries = c.entries :=
  if_neg (by omega)

theorem entries_prefix_perform (c : Cache) {request : Request} (h : request ≠ .clear) :
    c.entries <+: (c.perform request).2.entries := by
  cases request with
  | clear => exact absurd rfl h
  | fetch limits text =>
    rcases c.perform_fetch_cases limits text with ⟨rule, -, hf⟩ | ⟨rule, -, hf⟩ | ⟨e, hf⟩
    · simp only [hf, List.prefix_rfl]
    · simpa only [hf] using c.entries_prefix_keep text rule
    · simp only [hf, List.prefix_rfl]

theorem entries_prefix_after (c : Cache) {history : List Request} (h : .clear ∉ history) :
    c.entries <+: (c.after history).entries := by
  induction history generalizing c with
  | nil => exact List.prefix_refl _
  | cons request history ih =>
    rw [List.mem_cons, not_or] at h
    exact (c.entries_prefix_perform (Ne.symm h.1)).trans (ih _ h.2)

theorem fetch_of_mem_texts {c : Cache} {text : String} (h : text ∈ c.texts) (limits : Limits) :
    ∃ rule, c.get? text = some rule ∧ c.fetch limits text = (.ok rule, c) := by
  rcases c.fetch_cases limits text with ⟨rule, hget, hf⟩ | ⟨tree, hget, -⟩ | ⟨e, hget, -⟩
  · exact ⟨rule, hget, hf⟩
  · exact absurd h (get?_eq_none_iff.1 hget)
  · exact absurd h (get?_eq_none_iff.1 hget)

theorem fetch_tree_of_not_mem_texts {c : Cache} {text : String} (h : text ∉ c.texts)
    (limits : Limits) : (c.fetch limits text).1.map (·.tree) = compile limits text := by
  rw [← get?_eq_none_iff] at h
  rcases c.fetch_cases limits text with ⟨rule, hget, -⟩ | ⟨tree, -, hc, hf⟩ | ⟨e, -, hc, hf⟩
  · rw [h] at hget
    cases hget
  · rw [hf, hc]
    rfl
  · rw [hf, hc]
    rfl

theorem fetch_of_error {c : Cache} {limits : Limits} {text : String} {e : RuleError}
    (h : (c.fetch limits text).1 = .error e) : c.fetch limits text = (.error e, c) := by
  rcases c.fetch_cases limits text with ⟨rule, -, hf⟩ | ⟨tree, -, -, hf⟩ | ⟨e', -, -, hf⟩
  · rw [hf] at h
    cases h
  · rw [hf] at h
    cases h
  · rw [hf] at h ⊢
    cases h
    rfl

theorem entries_fetch_of_full {c : Cache} (full : c.size = c.capacity.toNat) (limits : Limits)
    (text : String) : (c.fetch limits text).2.entries = c.entries := by
  rcases c.fetch_cases limits text with ⟨rule, -, hf⟩ | ⟨tree, -, -, hf⟩ | ⟨e, -, -, hf⟩
  · rw [hf]
  · rw [hf]
    exact entries_keep_of_full full text _
  · rw [hf]

/-- **Admission.** Whatever was asked of a new cache, and with whatever limits, it holds the first
texts that were answered since it was cleared, up to its capacity. A refused request and one for
a text in the cache leave it as it is, any other text is compiled, a full cache takes nothing in,
and what is in it stays until it is cleared. -/
theorem texts_after (capacity : UInt64) (history : List Request) :
    let c := (empty capacity).after history
    c.texts = (answeredTexts ((empty capacity).events history)).take capacity.toNat ∧
    c.size ≤ capacity.toNat ∧
    (capacity = 0 → c.isEmpty) ∧
    (∀ limits text e, (c.fetch limits text).1 = .error e → (c.fetch limits text).2 = c) ∧
    (∀ limits text, text ∈ c.texts →
      ∃ rule, c.get? text = some rule ∧ c.fetch limits text = (.ok rule, c)) ∧
    (∀ limits text, text ∉ c.texts →
      (c.fetch limits text).1.map (·.tree) = compile limits text) ∧
    (c.size = capacity.toNat → ∀ limits text, (c.fetch limits text).2.entries = c.entries) ∧
    ∀ later, .clear ∉ later → c.entries <+: (c.after later).entries := by
  intro c
  have room : c.capacity = capacity := capacity_after _ history
  have first : c.texts = (answeredTexts ((empty capacity).events history)).take capacity.toNat := by
    have keeps := keepsFirst_after capacity history
    rwa [KeepsFirst, capacity_after] at keeps
  have size : c.size ≤ capacity.toNat := by
    rw [← length_texts, first, List.length_take]
    exact min_le_left ..
  refine ⟨first, size, ?_, ?_, ?_, ?_, ?_, fun later => c.entries_prefix_after⟩
  · rintro rfl
    exact List.isEmpty_iff_length_eq_zero.2 (Nat.le_zero.1 size)
  · intro limits text e h
    rw [fetch_of_error h]
  · intro limits text h
    exact fetch_of_mem_texts h limits
  · intro limits text h
    exact fetch_tree_of_not_mem_texts h limits
  · intro full limits text
    exact entries_fetch_of_full (full.trans (congrArg UInt64.toNat room.symm)) limits text

/-- Two rules fit: a third one is answered and not kept, and a clearing makes room for it. -/
theorem texts_after_two :
    let history : List Request := [.fetch {} "a > 1", .fetch {} "a >", .fetch {} "b > 1",
      .fetch { maxRuleLength := 1 } "a > 1", .fetch {} "c > 1"]
    let cleared := history ++ [.clear, .fetch {} "c > 1"]
    ((empty 2).after history).texts = ["a > 1", "b > 1"] ∧
      ((empty 2).after cleared).texts = ["c > 1"] ∧
      ((empty 2).after cleared).entries <+:
        (((empty 2).after cleared).after [.fetch {} "a > 1"]).entries := by
  intro history cleared
  refine ⟨?_, ?_, ?_⟩
  · rw [(texts_after 2 history).1]
    decide +kernel
  · rw [(texts_after 2 cleared).1]
    decide +kernel
  · exact (texts_after 2 cleared).2.2.2.2.2.2.2 _ (by decide)

end Cache

end RecordRules
