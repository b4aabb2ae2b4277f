import Mathlib.Data.List.Infix
import RecordRules.Proofs.JsonGrammar

/-!
# The numbers of a JSON text

A reader takes a value from what is left of a text and leaves an end of it, so each number of a
document stands in the text it was read from. It is an integer only where it is written as one: a
number with a point or an exponent is a float, even if its value is whole.
-/

namespace RecordRules.Json

/-- A number that a document holds at any depth. -/
inductive Document.HasNumber (n : Number) : Document → Prop
  | number : HasNumber n (.number (some n))
  | item {items : List Document} {d : Document} (mem : d ∈ items) (h : HasNumber n d) :
      HasNumber n (.array items)
  | member {members : List (Option String × Document)} {m : Option String × Document}
      (mem : m ∈ members) (h : HasNumber n m.2) : HasNumber n (.object members)

namespace Document

variable {n : Number}

@[simp] theorem hasNumber_null : ¬ null.HasNumber n := by
  rintro ⟨⟩

@[simp] theorem hasNumber_bool {b : Bool} : ¬ (bool b).HasNumber n := by
  rintro ⟨⟩

@[simp] theorem hasNumber_string {s : Option String} : ¬ (string s).HasNumber n := by
  rintro ⟨⟩

@[simp] theorem hasNumber_number {value : Option Number} :
    (number value).HasNumber n ↔ value = some n := by
  constructor
  · rintro ⟨⟩
    rfl
  · rintro rfl
    exact .number

@[simp] theorem hasNumber_array {items : List Document} :
    (array items).HasNumber n ↔ ∃ d ∈ items, d.HasNumber n := by
  constructor
  · rintro (_ | ⟨mem, h⟩)
    exact ⟨_, mem, h⟩
  · rintro ⟨d, mem, h⟩
    exact .item mem h

@[simp] theorem hasNumber_object {members : List (Option String × Document)} :
    (object members).HasNumber n ↔ ∃ m ∈ members, m.2.HasNumber n := by
  constructor
  · rintro (_ | _ | ⟨mem, h⟩)
    exact ⟨_, mem, h⟩
  · rintro ⟨m, mem, h⟩
    exact .member mem h

end Document

namespace Reader

/-! ## What a reader leaves -/

section
variable {cs rest : List Char}

theorem suffix_of_number? {t : NumberText} (h : number? cs = some (t, rest)) : rest <:+ cs := by
  obtain ⟨text, rfl, -⟩ := of_number? h
  exact List.suffix_append text rest

theorem suffix_of_string? {s : Option String} (h : string? cs = some (s, rest)) : rest <:+ cs := by
  obtain ⟨body, rfl, -⟩ := of_string? h
  exact List.suffix_append body rest

end

/-! ## Where values start -/

/-- What can stand in front of a part of a JSON text: a space, or a mark that closes nothing. -/
def opens : List Char := [' ', '\t', '\n', '\r', '[', '\x7b', ',', ':']

/-- The rest of a text from where a part can start: its front, or behind a space or a mark. -/
def StartsIn (cs text : List Char) : Prop := cs = text ∨ ∃ c ∈ opens, c :: cs <:+ text

theorem StartsIn.suffix {cs text : List Char} (h : StartsIn cs text) : cs <:+ text := by
  rcases h with rfl | ⟨c, -, h⟩
  · exact List.suffix_rfl
  · exact (List.suffix_cons c cs).trans h

theorem StartsIn.trans {cs ds text : List Char} (h : StartsIn cs ds) (h' : StartsIn ds text) :
    StartsIn cs text := by
  rcases h with rfl | ⟨c, hc, h⟩
  · exact h'
  · exact .inr ⟨c, hc, h.trans h'.suffix⟩

theorem startsIn_skipSpace (cs : List Char) : StartsIn (skipSpace cs) cs := by
  induction cs with
  | nil => exact .inl rfl
  | cons c cs ih =>
    rw [skipSpace, List.dropWhile_cons]
    split
    · rename_i space
      have front : c ∈ opens := by
        simp only [Bool.or_eq_true, beq_iff_eq, or_assoc] at space
        simp only [opens, List.mem_cons]
        tauto
      exact ih.trans (.inr ⟨c, front, List.suffix_rfl⟩)
    · exact .inl rfl

theorem suffix_of_skipSpace {c : Char} {cs rest : List Char} (h : skipSpace cs = c :: rest) :
    c :: rest <:+ cs := by
  rw [← h]
  exact (startsIn_skipSpace cs).suffix

/-! ## Numbers -/

/-- The text has a number of these parts where a part can start. -/
def Writes (text : List Char) (t : NumberText) : Prop :=
  ∃ cs rest, StartsIn cs text ∧ number? cs = some (t, rest)

/-- A text is read up to `rest`, and each number in what is read stands in the text. -/
structure Takes (cs rest : List Char) (holds : Number → Prop) : Prop where
  suffix : rest <:+ cs
  writes : ∀ n, holds n → ∃ t, Writes cs t ∧ t.toNumber? = some n

namespace Takes

variable {cs text rest after : List Char} {holds more : Number → Prop}

/-- What is read of a part of a text is read of the text. -/
theorem of_startsIn (h : Takes cs rest holds) (place : StartsIn cs text) :
    Takes text rest holds := by
  refine ⟨h.suffix.trans place.suffix, fun n hn => ?_⟩
  obtain ⟨t, ⟨start, after, inner, read⟩, ht⟩ := h.writes n hn
  exact ⟨t, ⟨start, after, inner.trans place, read⟩, ht⟩

theorem of_mark {c : Char} (h : Takes cs rest holds) (mark : c ∈ opens)
    (behind : c :: cs <:+ text) : Takes text rest holds :=
  h.of_startsIn (.inr ⟨c, mark, behind⟩)

theorem or (h : Takes cs after holds) (h' : Takes cs rest more) :
    Takes cs rest fun n => holds n ∨ more n :=
  ⟨h'.suffix, fun n hn => hn.elim (h.writes n) (h'.writes n)⟩

/-- The mark that closes a part is taken with it. -/
theorem close {c : Char} (h : Takes cs after holds) (behind : skipSpace after = c :: rest) :
    Takes cs rest holds :=
  ⟨((List.suffix_cons c rest).trans (suffix_of_skipSpace behind)).trans h.suffix, h.writes⟩

theorem nothing (h : rest <:+ cs) (none : ∀ n, ¬ holds n) : Takes cs rest holds :=
  ⟨h, fun n hn => absurd hn (none n)⟩

/-- Nothing stands before a mark that closes a part at once. -/
theorem empty {c : Char} (behind : skipSpace cs = c :: rest) : Takes cs rest fun _ => False :=
  (nothing List.suffix_rfl fun _ => id).close behind

end Takes

/-- The readers take what they read from the text, with so much fuel. -/
structure TakeParts (fuel : Nat) : Prop where
  value : ∀ {cs rest d}, value? fuel cs = some (d, rest) → Takes cs rest d.HasNumber
  items : ∀ {cs rest ds}, items? fuel cs = some (ds, rest) →
    Takes cs rest fun n => ∃ d ∈ ds, d.HasNumber n
  members : ∀ {cs rest ms}, members? fuel cs = some (ms, rest) →
    Takes cs rest fun n => ∃ m ∈ ms, m.2.HasNumber n

section
variable {fuel : Nat} {cs rest : List Char} (h : TakeParts fuel)
include h

theorem takes_of_value? {d : Document} (read : value? (fuel + 1) cs = some (d, rest)) :
    Takes cs rest d.HasNumber := by
  apply Takes.of_startsIn _ (startsIn_skipSpace cs)
  unfold value? at read
  split at read
  · rename_i word
    cases read
    rw [word]
    exact .nothing (List.suffix_append ['n', 'u', 'l', 'l'] _) (by simp)
  · rename_i word
    cases read
    rw [word]
    exact .nothing (List.suffix_append ['t', 'r', 'u', 'e'] _) (by simp)
  · rename_i word
    cases read
    rw [word]
    exact .nothing (List.suffix_append ['f', 'a', 'l', 's', 'e'] _) (by simp)
  · rename_i quote
    obtain ⟨⟨s, after⟩, string, read⟩ := Option.map_eq_some_iff.1 read
    cases read
    rw [quote]
    exact .nothing ((suffix_of_string? string).trans (List.suffix_cons ..)) (by simp)
  · rename_i afterOpen bracket
    rw [bracket]
    split at read
    · rename_i behind
      cases read
      simpa using (Takes.empty behind).of_mark (by decide) List.suffix_rfl
    · obtain ⟨⟨items, after⟩, hitems, read⟩ := Option.map_eq_some_iff.1 read
      cases read
      have inner := (h.items hitems).of_startsIn (startsIn_skipSpace afterOpen)
      simpa using inner.of_mark (by decide) List.suffix_rfl
  · rename_i afterOpen brace
    rw [brace]
    split at read
    · rename_i behind
      cases read
      simpa using (Takes.empty behind).of_mark (by decide) List.suffix_rfl
    · obtain ⟨⟨members, after⟩, hmembers, read⟩ := Option.map_eq_some_iff.1 read
      cases read
      have inner := (h.members hmembers).of_startsIn (startsIn_skipSpace afterOpen)
      simpa using inner.of_mark (by decide) List.suffix_rfl
  · obtain ⟨⟨t, after⟩, number, read⟩ := Option.map_eq_some_iff.1 read
    cases read
    refine ⟨suffix_of_number? number, fun n hn => ?_⟩
    exact ⟨t, ⟨_, _, .inl rfl, number⟩, Document.hasNumber_number.1 hn⟩

theorem takes_of_items? {ds : List Document} (read : items? (fuel + 1) cs = some (ds, rest)) :
    Takes cs rest fun n => ∃ d ∈ ds, d.HasNumber n := by
  unfold items? at read
  obtain ⟨⟨d, afterItem⟩, item, read⟩ := Option.bind_eq_some_iff.1 read
  have first := h.value item
  dsimp only at read
  split at read
  · rename_i behind
    obtain ⟨⟨ds, after⟩, more, read⟩ := Option.bind_eq_some_iff.1 read
    cases read
    have comma := (suffix_of_skipSpace behind).trans first.suffix
    have tail := (h.items more).of_mark (by decide) comma
    simpa only [List.exists_mem_cons_iff] using first.or tail
  · rename_i behind
    cases read
    simpa using first.close behind
  · cases read

theorem takes_of_members? {ms : List (Option String × Document)}
    (read : members? (fuel + 1) cs = some (ms, rest)) :
    Takes cs rest fun n => ∃ m ∈ ms, m.2.HasNumber n := by
  unfold members? at read
  split at read
  · rename_i quote
    obtain ⟨⟨key, afterKey⟩, hkey, read⟩ := Option.bind_eq_some_iff.1 read
    dsimp only at read
    split at read
    · rename_i colon
      obtain ⟨⟨d, afterValue⟩, value, read⟩ := Option.bind_eq_some_iff.1 read
      dsimp only at read
      have opened := (List.suffix_cons ..).trans (suffix_of_skipSpace quote)
      have named := (suffix_of_string? hkey).trans opened
      have first := (h.value value).of_mark (by decide) ((suffix_of_skipSpace colon).trans named)
      split at read
      · rename_i behind
        obtain ⟨⟨ms, after⟩, more, read⟩ := Option.bind_eq_some_iff.1 read
        cases read
        have comma := (suffix_of_skipSpace behind).trans first.suffix
        have tail := (h.members more).of_mark (by decide) comma
        simpa only [List.exists_mem_cons_iff] using first.or tail
      · rename_i behind
        cases read
        simpa using first.close behind
      · cases read
    · cases read
  · cases read

end

theorem takeParts (fuel : Nat) : TakeParts fuel := by
  -- Each reader calls the others with less fuel only, so the three go through one induction.
  induction fuel with
  | zero =>
    constructor
    all_goals
      intro cs rest part read
      cases read
  | succ fuel ih => exact ⟨takes_of_value? ih, takes_of_items? ih, takes_of_members? ih⟩

end Reader

/-! ## Integers -/

namespace NumberText

/-- A number that becomes an integer is written as one. -/
theorem integer?_of_toNumber? {t : NumberText} {n : Int} {low : Int64.minValue.toInt ≤ n}
    {high : n < UInt64.size} (h : t.toNumber? = some (.integer n low high)) :
    t.integer? = some n := by
  unfold toNumber? at h
  split at h
  · rename_i whole
    cases h
    obtain ⟨m, hm, integer⟩ := Option.bind_eq_some_iff.1 whole
    unfold Number.ofInt? at integer
    split at integer
    · cases integer
      exact hm
    · cases integer
  · obtain ⟨m, -, float⟩ := Option.bind_eq_some_iff.1 h
    unfold Number.ofBinary64? at float
    split at float <;> cases float

/-- An integer is written as digits with nothing behind them. -/
theorem parts_of_integer? {t : NumberText} {n : Int} (h : t.integer? = some n) :
    t = ⟨t.negative, t.whole, none, none⟩ ∧
      n = (if t.negative then -1 else 1) * Nat.ofDigitChars 10 t.whole 0 := by
  obtain ⟨negative, whole, fraction, exponent⟩ := t
  unfold integer? at h
  dsimp only at h
  obtain ⟨plain, value⟩ := Option.ite_none_left_eq_some.1 h
  simp only [Bool.or_eq_true, not_or, Option.not_isSome_iff_eq_none] at plain
  obtain ⟨⟨rfl, rfl⟩, -⟩ := plain
  cases value
  cases negative <;> simp

end NumberText

/-- The text has this integer where a part can start: digits with a minus sign or without one, and
behind them neither a point nor an exponent. -/
def WritesInteger (text : String) (n : Int) : Prop :=
  ∃ negative digits, Reader.Writes text.toList ⟨negative, digits, none, none⟩ ∧
    n = (if negative then -1 else 1) * Nat.ofDigitChars 10 digits 0

/-- An integer that a document holds is written as this integer in the text of the document. -/
theorem writesInteger_of_ofText? {text : String} {d : Document} (h : Document.ofText? text = some d)
    {n : Int} {low : Int64.minValue.toInt ≤ n} {high : n < UInt64.size}
    (hn : d.HasNumber (.integer n low high)) : WritesInteger text n := by
  unfold Document.ofText? at h
  dsimp only at h
  split at h
  · rename_i read
    split at h
    · cases h
      obtain ⟨t, writes, ht⟩ := ((Reader.takeParts _).value read).writes _ hn
      have integer := NumberText.integer?_of_toNumber? ht
      obtain ⟨parts, value⟩ := NumberText.parts_of_integer? integer
      exact ⟨t.negative, t.whole, parts ▸ writes, value⟩
    · cases h
  · cases h

end RecordRules.Json
