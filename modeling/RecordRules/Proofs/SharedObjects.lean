import RecordRules.Proofs.SharedCache

/-!
# Objects that are handed out again

A compilation makes a new object, and what a cache holds was made before. So two answers to a text
are one object just if the first one left it in the cache and nothing has cleared the cache since.
-/

namespace RecordRules

namespace Cache

section
variable {c : Cache} {limits : Limits} {text : String} {rule : Compiled}

/-! ## What a request does -/

/-- An answer is the object that is held, or the next one to be made. -/
theorem fetch_ok_cases (h : (c.fetch limits text).1 = .ok rule) :
    c.get? text = some rule ∧ (c.fetch limits text).2 = c ∨
      c.get? text = none ∧ rule.serial = c.made ∧ (c.fetch limits text).2 = c.keep text rule := by
  rcases c.fetch_cases limits text with ⟨cached, hget, hf⟩ | ⟨tree, hget, -, hf⟩ | ⟨e, -, -, hf⟩
  · obtain rfl : cached = rule := by simpa [hf] using h
    exact .inl ⟨hget, by rw [hf]⟩
  · obtain rfl : ⟨c.made, tree⟩ = rule := by simpa [hf] using h
    exact .inr ⟨hget, rfl, by rw [hf]⟩
  · simp [hf] at h

/-- A text that the cache does not hold is answered with the next object to be made. -/
theorem fetch_ok_of_not_mem_texts (new : text ∉ c.texts)
    (h : (c.fetch limits text).1 = .ok rule) :
    rule.serial = c.made ∧ (c.fetch limits text).2 = c.keep text rule := by
  rcases fetch_ok_cases h with ⟨hget, -⟩ | ⟨-, made⟩
  · simp [get?_eq_none_iff.2 new] at hget
  · exact made

/-- A request leaves the cache as it is, clears it, or adds the next object. -/
theorem perform_cache_cases (c : Cache) (request : Request) :
    (c.perform request).2 = c ∨ (c.perform request).2 = c.clear ∨
      ∃ text rule, rule.serial = c.made ∧ (c.perform request).2 = c.keep text rule := by
  cases request with
  | clear => exact .inr (.inl rfl)
  | fetch limits text =>
    rw [perform_fetch_cache]
    cases h : (c.fetch limits text).1 with
    | error e => exact .inl (by rw [fetch_of_error h])
    | ok rule =>
      rcases fetch_ok_cases h with ⟨-, same⟩ | ⟨-, next, added⟩
      · exact .inl same
      · exact .inr (.inr ⟨text, rule, next, added⟩)

theorem eq_fetch_of_answered {request : Request} (h : (c.perform request).1 = .answered text rule) :
    ∃ limits, request = .fetch limits text ∧ (c.fetch limits text).1 = .ok rule := by
  cases request with
  | clear => cases h
  | fetch limits asked =>
    simp only [Cache.perform] at h
    split at h
    · rename_i hf
      cases h
      exact ⟨limits, rfl, by rw [hf]⟩
    · cases h

/-- A history keeps what each of its requests keeps. -/
theorem after_induction {P : Cache → Prop} {history : List Request} (start : P c)
    (step : ∀ d, P d → ∀ request ∈ history, P (d.perform request).2) : P (c.after history) :=
  List.foldlRecOn history _ start step

/-! ## Objects made so far -/

theorem made_le_perform (c : Cache) (request : Request) : c.made ≤ (c.perform request).2.made := by
  rcases c.perform_cache_cases request with same | cleared | ⟨text, rule, -, added⟩
  · rw [same]
  · rw [cleared]
    exact Nat.le_refl c.made
  · rw [added]
    exact Nat.le_succ c.made

theorem made_le_after (c : Cache) (history : List Request) : c.made ≤ (c.after history).made := by
  apply after_induction (P := fun d => c.made ≤ d.made) (Nat.le_refl c.made)
  intro d le request _
  exact le.trans (d.made_le_perform request)

/-- No object that is held has a serial number that is still to come. -/
def HoldsMade (c : Cache) : Prop := ∀ entry ∈ c.entries, entry.2.serial < c.made

theorem HoldsMade.get (h : c.HoldsMade) (hget : c.get? text = some rule) :
    rule.serial < c.made := by
  obtain ⟨earlier, later, hentries, -⟩ := List.lookup_eq_some_iff.1 hget
  exact h (text, rule) (by simp [hentries])

theorem HoldsMade.keep (h : c.HoldsMade) (next : rule.serial = c.made) (text : String) :
    (c.keep text rule).HoldsMade := by
  intro entry hentry
  have made : entry.2.serial ≤ c.made := by
    simp only [Cache.keep] at hentry
    split at hentry
    · rcases List.mem_append.1 hentry with hentry | hentry
      · exact Nat.le_of_lt (h entry hentry)
      · obtain rfl := List.mem_singleton.1 hentry
        exact Nat.le_of_eq next
    · exact Nat.le_of_lt (h entry hentry)
  exact Nat.lt_succ_of_le made

theorem HoldsMade.perform (h : c.HoldsMade) (request : Request) :
    (c.perform request).2.HoldsMade := by
  rcases c.perform_cache_cases request with same | cleared | ⟨text, rule, next, added⟩
  · rwa [same]
  · rw [cleared]
    exact fun _ hentry => absurd hentry List.not_mem_nil
  · rw [added]
    exact h.keep next text

theorem holdsMade_after (capacity : UInt64) (history : List Request) :
    ((empty capacity).after history).HoldsMade := by
  apply after_induction (P := HoldsMade)
  · exact fun _ hentry => absurd hentry List.not_mem_nil
  · intro d made request _
    exact made.perform request

theorem HoldsMade.serial_lt (h : c.HoldsMade) (hok : (c.fetch limits text).1 = .ok rule) :
    rule.serial < (c.fetch limits text).2.made := by
  rcases fetch_ok_cases hok with ⟨hget, same⟩ | ⟨-, next, added⟩
  · rw [same]
    exact h.get hget
  · rw [added]
    exact Nat.lt_succ_of_le (Nat.le_of_eq next)

/-- Every object that was handed out was made. -/
theorem HoldsMade.serial_lt_of_mem_events (h : c.HoldsMade) {history : List Request}
    (mem : .answered text rule ∈ c.events history) : rule.serial < (c.after history).made := by
  induction history generalizing c with
  | nil => cases mem
  | cons request history ih =>
    rcases List.mem_cons.1 mem with first | mem
    · obtain ⟨limits, rfl, hok⟩ := eq_fetch_of_answered first.symm
      have made := h.serial_lt hok
      rw [← perform_fetch_cache] at made
      exact made.trans_le (made_le_after _ history)
    · exact ih (h.perform request) mem

/-! ## Objects that stay -/

theorem get?_keep_of_room (new : c.get? text = none) (room : c.size < c.capacity.toNat) :
    (c.keep text rule).get? text = some rule := by
  rw [get?] at new
  simp [get?, Cache.keep, room, List.lookup_append, new]

theorem get?_of_fetch (hok : (c.fetch limits text).1 = .ok rule)
    (held : text ∈ (c.fetch limits text).2.texts) :
    (c.fetch limits text).2.get? text = some rule := by
  rcases fetch_ok_cases hok with ⟨hget, same⟩ | ⟨hget, -, added⟩
  · rwa [same]
  · rw [added, texts_keep] at held
    rw [added]
    by_cases room : c.size < c.capacity.toNat
    · exact get?_keep_of_room hget room
    · rw [if_neg room] at held
      exact absurd held (get?_eq_none_iff.1 hget)

theorem get?_after {history : List Request} (hc : .clear ∉ history) (h : c.get? text = some rule) :
    (c.after history).get? text = some rule := by
  obtain ⟨added, hentries⟩ := c.entries_prefix_after hc
  rw [get?] at h ⊢
  rw [← hentries, List.lookup_append, h, Option.some_or]

theorem fetch_of_get? (h : c.get? text = some rule) (limits : Limits) :
    c.fetch limits text = (.ok rule, c) := by
  rw [fetch, h]

theorem entries_after_of_full {history : List Request} (hc : .clear ∉ history)
    (full : c.size = c.capacity.toNat) : (c.after history).entries = c.entries := by
  have kept : (c.after history).entries = c.entries ∧
      (c.after history).capacity = c.capacity := by
    apply after_induction (P := fun d => d.entries = c.entries ∧ d.capacity = c.capacity) ⟨rfl, rfl⟩
    rintro d ⟨entries, capacity⟩ request mem
    have still : d.size = d.capacity.toNat := by
      rw [size, entries, capacity]
      exact full
    refine ⟨?_, (capacity_perform d request).trans capacity⟩
    cases request with
    | clear => exact absurd mem hc
    | fetch limits text =>
      rw [perform_fetch_cache, entries_fetch_of_full still]
      exact entries
  exact kept.1

/-! ## Objects that are lost -/

variable {serial : Nat}

/-- An object that was made and that the cache does not hold for the text. No request brings it back:
what a request adds to the cache is an object that was not made yet. -/
def HasLost (c : Cache) (text : String) (serial : Nat) : Prop :=
  serial < c.made ∧ ∀ rule, c.get? text = some rule → rule.serial ≠ serial

theorem get?_keep_cases {asked : String} {found : Compiled}
    (h : (c.keep asked rule).get? text = some found) : c.get? text = some found ∨ found = rule := by
  rw [get?] at h ⊢
  unfold Cache.keep at h
  split at h
  · rw [List.lookup_append] at h
    rcases Option.or_eq_some_iff.1 h with h | ⟨-, h⟩
    · exact .inl h
    · obtain ⟨earlier, later, hentries, -⟩ := List.lookup_eq_some_iff.1 h
      have only : (text, found) ∈ [(asked, rule)] := by simp [hentries]
      exact .inr (Prod.mk.inj (List.mem_singleton.1 only)).2
  · exact .inl h

theorem hasLost_clear (made : serial < c.made) : c.clear.HasLost text serial :=
  ⟨made, fun rule hget => by cases hget⟩

theorem HasLost.perform (h : c.HasLost text serial) (request : Request) :
    (c.perform request).2.HasLost text serial := by
  obtain ⟨made, lost⟩ := h
  rcases c.perform_cache_cases request with same | cleared | ⟨asked, rule, next, added⟩
  · rw [same]
    exact ⟨made, lost⟩
  · rw [cleared]
    exact hasLost_clear made
  · rw [added]
    refine ⟨Nat.lt_succ_of_lt made, fun found hget => ?_⟩
    rcases get?_keep_cases hget with hget | rfl
    · exact lost found hget
    · exact Nat.ne_of_gt (next ▸ made)

theorem HasLost.after (h : c.HasLost text serial) (history : List Request) :
    (c.after history).HasLost text serial := by
  apply after_induction (P := (HasLost · text serial)) h
  intro d lost request _
  exact lost.perform request

theorem hasLost_of_mem_clear {history : List Request} (hc : .clear ∈ history)
    (made : serial < c.made) : (c.after history).HasLost text serial := by
  obtain ⟨earlier, later, rfl⟩ := List.append_of_mem hc
  rw [after_append]
  exact (hasLost_clear (made.trans_le (c.made_le_after earlier))).after later

theorem HasLost.serial_ne (h : c.HasLost text serial) (hok : (c.fetch limits text).1 = .ok rule) :
    rule.serial ≠ serial := by
  rcases fetch_ok_cases hok with ⟨hget, -⟩ | ⟨-, next, -⟩
  · exact h.2 rule hget
  · exact Nat.ne_of_gt (next ▸ h.1)

/-! ## Two answers to a text -/

section
variable {between : List Request} {limits' : Limits} {rule' : Compiled}

theorem after_fetch_cons (c : Cache) (limits : Limits) (text : String) (between : List Request) :
    c.after (.fetch limits text :: between) = (c.fetch limits text).2.after between :=
  congrArg (·.after between) (perform_fetch_cache c limits text)

theorem mem_texts_of_room (hok : (c.fetch limits text).1 = .ok rule) (new : text ∉ c.texts)
    (room : c.size < c.capacity.toNat) : text ∈ (c.fetch limits text).2.texts := by
  obtain ⟨-, added⟩ := fetch_ok_of_not_mem_texts new hok
  simp [added, texts_keep, room]

theorem fetch_again (hok : (c.fetch limits text).1 = .ok rule) (hc : .clear ∉ between)
    (held : text ∈ (c.fetch limits text).2.texts) (limits' : Limits) :
    ((c.fetch limits text).2.after between).fetch limits' text =
      (.ok rule, (c.fetch limits text).2.after between) :=
  fetch_of_get? (get?_after hc (get?_of_fetch hok held)) limits'

theorem HoldsMade.serial_eq_iff (h : c.HoldsMade) (hok : (c.fetch limits text).1 = .ok rule)
    (hok' : (((c.fetch limits text).2.after between).fetch limits' text).1 = .ok rule') :
    rule'.serial = rule.serial ↔ .clear ∉ between ∧ text ∈ (c.fetch limits text).2.texts := by
  have made := h.serial_lt hok
  constructor
  · intro equal
    constructor
    · intro hc
      exact (hasLost_of_mem_clear hc made).serial_ne hok' equal
    -- The object was refused: it is as lost as one that was cleared away.
    · by_contra out
      have lost : (c.fetch limits text).2.HasLost text rule.serial := by
        refine ⟨made, fun found hget => ?_⟩
        simp [get?_eq_none_iff.2 out] at hget
      exact (lost.after between).serial_ne hok' equal
  · rintro ⟨hc, held⟩
    obtain rfl : rule = rule' := by simpa [fetch_again hok hc held] using hok'
    rfl

theorem not_mem_texts_of_full (full : c.size = c.capacity.toNat) (new : text ∉ c.texts)
    (hc : .clear ∉ between) (limits : Limits) :
    text ∉ ((c.fetch limits text).2.after between).texts := by
  have known : .clear ∉ .fetch limits text :: between := by simpa using hc
  rw [← after_fetch_cons, texts, entries_after_of_full known full]
  exact new

end

end

/-- **One object.** Two answers to a text are the same object just if the cache holds the text right
after the first and is not cleared between them. So an object made where there is room is handed out
from its first answer on until the cache is cleared; and while a full cache keeps a text out, each
answer to it is an object that was never handed out before. -/
theorem fetch_same_object (capacity : UInt64) (before between : List Request)
    (limits limits' : Limits) (text : String) :
    let start := (empty capacity).after before
    let now := (start.fetch limits text).2
    let later := now.after between
    ∀ rule, (start.fetch limits text).1 = .ok rule →
      (∀ rule', (later.fetch limits' text).1 = .ok rule' →
        (rule'.serial = rule.serial ↔ .clear ∉ between ∧ text ∈ now.texts) ∧
        (rule'.serial = rule.serial → rule' = rule)) ∧
      (text ∉ start.texts → .clear ∉ between →
        (start.size < capacity.toNat → later.fetch limits' text = (.ok rule, later)) ∧
        (start.size = capacity.toNat →
          (later.fetch limits' text).1.map (·.tree) = compile limits' text ∧
          ∀ rule', (later.fetch limits' text).1 = .ok rule' → ∀ other handed,
            .answered other handed ∈
              (empty capacity).events (before ++ .fetch limits text :: between) →
            handed.serial ≠ rule'.serial)) := by
  intro start now later rule hok
  have made : start.HoldsMade := holdsMade_after capacity before
  have whole : (empty capacity).after (before ++ .fetch limits text :: between) = later := by
    rw [after_append, after_fetch_cons]
  have limit : start.capacity = capacity := capacity_after _ before
  refine ⟨fun rule' hok' => ?_, fun new hc => ⟨fun room => ?_, fun full => ?_⟩⟩
  · have same := made.serial_eq_iff hok hok'
    refine ⟨same, fun equal => ?_⟩
    obtain ⟨hc, held⟩ := same.1 equal
    simpa [later, now, fetch_again hok hc held] using hok'.symm
  · rw [← limit] at room
    exact fetch_again hok hc (mem_texts_of_room hok new room) limits'
  · rw [← limit] at full
    have out : text ∉ later.texts := not_mem_texts_of_full full new hc limits
    refine ⟨fetch_tree_of_not_mem_texts out limits', fun rule' hok' other handed mem => ?_⟩
    have earlier := (holdsMade_after capacity []).serial_lt_of_mem_events mem
    obtain ⟨next, -⟩ := fetch_ok_of_not_mem_texts out hok'
    rw [next]
    exact Nat.ne_of_lt (whole ▸ earlier)

/-- A cache of one rule: the rule that is kept is one object, also after another one was refused,
and that one is a third object when it is asked for again. -/
theorem fetch_same_object_full :
    let kept : Compiled := ⟨0, .operand ⟨"a", .gt, .integer 1⟩⟩
    let refused : Compiled := ⟨1, .operand ⟨"b", .gt, .integer 1⟩⟩
    let first := (empty 1).fetch {} "a > 1"
    let second := first.2.fetch {} "b > 1"
    first.1 = .ok kept ∧ second.1 = .ok refused ∧
      second.2.fetch { maxRuleLength := 1 } "a > 1" = (.ok kept, second.2) ∧
      ∃ again, (second.2.fetch {} "b > 1").1 = .ok again ∧ again.serial ≠ kept.serial ∧
        again.serial ≠ refused.serial := by
  intro kept refused first second
  have hkept : first.1 = .ok kept := Token.eq_ok_of_toOption (by decide +kernel)
  have hrefused : second.1 = .ok refused := Token.eq_ok_of_toOption (by decide +kernel)
  have tree : compile {} "b > 1" = .ok refused.tree := Token.eq_ok_of_toOption (by decide +kernel)
  refine ⟨hkept, hrefused, ?_, ?_⟩
  · have room := (fetch_same_object 1 [] [.fetch {} "b > 1"] {} { maxRuleLength := 1 } "a > 1" kept
      hkept).2 (by decide) (by decide)
    exact room.1 (by decide)
  · obtain ⟨-, full⟩ := (fetch_same_object 1 [.fetch {} "a > 1"] [] {} {} "b > 1" refused
      hrefused).2 (by decide +kernel) (by decide)
    obtain ⟨compiled, fresh⟩ := full (by decide +kernel)
    rw [tree] at compiled
    obtain ⟨again, hagain, -⟩ := map_eq_ok_iff.1 compiled
    refine ⟨again, hagain, ?_, ?_⟩
    · exact (fresh again hagain "a > 1" kept (List.mem_cons_self ..)).symm
    · exact (fresh again hagain "b > 1" refused (List.mem_cons_of_mem _ List.mem_cons_self)).symm

end Cache

end RecordRules
