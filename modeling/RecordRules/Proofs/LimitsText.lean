import Mathlib.Data.List.Forall2
import RecordRules.Engine
import RecordRules.Proofs.ImportRoutes
import RecordRules.Proofs.JsonReading
import RecordRules.Proofs.LimitsByName
import RecordRules.Proofs.TextNumbers

/-!
# Limits from their text

Which texts are read as limits: those of an object that names nothing but limits and has digits as
the last value of each name, if the reader can hold all of the object.
-/

namespace RecordRules

open Json (Document TextOf WritesNumber WritesExponent WritesString Separated Item Member IsBlank
  NumberText Number valuesOf)

/-! ## Limits in digits -/

namespace Json

theorem NumberText.integer?_digits (digits : List Char) :
    (NumberText.mk false digits none none).integer? = some (Nat.ofDigitChars 10 digits 0) := by
  simp [integer?]

theorem NumberText.eq_digits_of_integer? {t : NumberText} {n : Int} (h : t.integer? = some n)
    (nonneg : 0 ≤ n) : t = ⟨false, t.whole, none, none⟩ ∧ n = Nat.ofDigitChars 10 t.whole 0 := by
  obtain ⟨parts, value⟩ := parts_of_integer? h
  cases sign : t.negative with
  | false =>
    rw [sign] at parts value
    exact ⟨parts, by simpa using value⟩
  | true =>
    -- Zero with a minus sign is no integer.
    rw [sign, if_pos rfl] at value
    have zero : Nat.ofDigitChars 10 t.whole 0 = 0 := by omega
    simp [integer?, sign, zero] at h

theorem NumberText.toNumber?_of_integer? {t : NumberText} {n : Int} (h : t.integer? = some n)
    (low : Int64.minValue.toInt ≤ n) (high : n < UInt64.size) :
    t.toNumber? = some (.integer n low high) := by
  rw [toNumber?, h, Option.bind_some, Number.ofInt?, dif_pos ⟨low, high⟩]

theorem WritesNumber.eq_digits {digits cs : List Char}
    (h : WritesNumber ⟨false, digits, none, none⟩ cs) : cs = digits := by
  obtain ⟨-, es, exponent, rfl⟩ := h
  cases exponent
  simp [Literal.signChars, NumberText.fractionChars]

theorem WritesNumber.digits {t : NumberText} {cs : List Char} (h : WritesNumber t cs)
    (all : ∀ c ∈ cs, c.isDigit) : t = ⟨false, cs, none, none⟩ := by
  obtain ⟨negative, whole, fraction, exponent⟩ := t
  have text := h
  obtain ⟨-, es, written, rfl⟩ := h
  obtain rfl : negative = false := by
    cases negative with
    | false => rfl
    | true => exact absurd (all '-' (by simp [Literal.signChars])) (by decide)
  obtain rfl : fraction = none := by
    cases fraction with
    | none => rfl
    | some digits => exact absurd (all '.' (by simp [NumberText.fractionChars])) (by decide)
  cases written with
  | absent => rw [text.eq_digits]
  | @marked mark _ _ _ isMark =>
    have digit := all mark (by simp)
    rcases isMark with rfl | rfl <;> exact absurd digit (by decide)

theorem TextOf.exists_number {cs : List Char} {d : Document} {n : Number} (h : TextOf cs d)
    (kept : d.toJson? = some (.number n)) :
    ∃ t : NumberText, WritesNumber t cs ∧ t.toNumber? = some n := by
  cases h with
  | @number t _ written =>
    obtain ⟨m, value, same⟩ := Option.map_eq_some_iff.1 kept
    cases same
    exact ⟨t, written, value⟩
  | null | bool | string | array | object => simp [Document.toJson?] at kept

theorem TextOf.digits {cs : List Char} {d : Document} (h : TextOf cs d)
    (all : ∀ c ∈ cs, c.isDigit) :
    d = .number (NumberText.mk false cs none none).toNumber? := by
  cases h with
  | null => exact absurd (all _ List.mem_cons_self) (by decide)
  | bool b => cases b <;> exact absurd (all _ List.mem_cons_self) (by decide)
  | number written => rw [written.digits all]
  | string written =>
    obtain ⟨body, rfl⟩ := written.exists_start
    exact absurd (all _ List.mem_cons_self) (by decide)
  | array => exact absurd (all _ List.mem_cons_self) (by decide)
  | object => exact absurd (all _ List.mem_cons_self) (by decide)

end Json

namespace Limits

/-- The digits of a whole number, with nothing around them. -/
def WritesLimit (n : UInt64) (cs : List Char) : Prop :=
  (∀ c ∈ cs, c.isDigit) ∧ Nat.ofDigitChars 10 cs 0 = n.toNat

theorem toJson?_eq_limit_iff {core : List Char} {d : Document} {n : UInt64}
    (written : TextOf core d) :
    d.toJson? = some (.number (.ofUInt64 n)) ↔ WritesLimit n core := by
  constructor
  · intro kept
    obtain ⟨t, number, value⟩ := written.exists_number kept
    obtain ⟨parts, same⟩ := NumberText.eq_digits_of_integer?
      (NumberText.integer?_of_toNumber? value) (Int.natCast_nonneg _)
    rw [parts] at number
    obtain rfl := number.eq_digits
    exact ⟨number.grammatical.digits, (Int.ofNat.inj same).symm⟩
  · rintro ⟨digits, value⟩
    have small : (n.toNat : Int) < UInt64.size := Int.ofNat_lt.2 n.toNat_lt
    have low : Int64.minValue.toInt ≤ n.toNat := Int.le_trans (by decide) (Int.natCast_nonneg _)
    have integer := NumberText.integer?_digits core
    rw [value] at integer
    rw [written.digits digits, Document.toJson?,
      NumberText.toNumber?_of_integer? integer low small]
    rfl

end Limits

/-! ## Members and their values -/

namespace Json

def lastOf (key : String) (members : List Member) : Option Member :=
  (members.filter (·.key == some key)).getLast?

def Member.HasEntry (m : Member) (p : String × Json) : Prop :=
  m.key = some p.1 ∧ m.item.value.toJson? = some p.2

theorem membersToJson?_toPair_eq_some_iff {members : List Member} {ms : List (String × Json)} :
    Document.membersToJson? (members.map Member.toPair) = some ms ↔
      List.Forall₂ Member.HasEntry members ms := by
  induction members generalizing ms with
  | nil => simp [Document.membersToJson?, eq_comm]
  | cons m members ih =>
    rw [List.map_cons, Member.toPair, Exchange.membersToJson?_cons_eq_some_iff]
    constructor
    · rintro ⟨k, j, ms', key, value, rest, rfl⟩
      exact .cons ⟨key, value⟩ (ih.1 rest)
    · intro h
      cases h with
      | cons entry rest => exact ⟨_, _, _, entry.1, entry.2, ih.2 rest, rfl⟩

theorem forall_mem_iff_of_forall₂ {α β : Type} {R : α → β → Prop} {P : α → Prop} {Q : β → Prop}
    {as : List α} {bs : List β} (h : List.Forall₂ R as bs) (same : ∀ a b, R a b → (P a ↔ Q b)) :
    (∀ a ∈ as, P a) ↔ ∀ b ∈ bs, Q b := by
  induction h with
  | nil => simp
  | cons first _ ih => rw [List.forall_mem_cons, List.forall_mem_cons, same _ _ first, ih]

theorem forall₂_getLast? {α β : Type} {R : α → β → Prop} {as : List α} {bs : List β}
    (h : List.Forall₂ R as bs) : Option.Rel R as.getLast? bs.getLast? := by
  rw [List.getLast?_eq_head?_reverse, List.getLast?_eq_head?_reverse]
  have both := List.rel_reverse h
  revert both
  generalize as.reverse = as, bs.reverse = bs
  rintro (_ | ⟨first, _⟩)
  · exact .none
  · exact .some first

section
variable {α β : Type} {R : α → β → Prop} {a? : Option α} {b? : Option β} (h : Option.Rel R a? b?)
include h

theorem forall_mem_iff_of_rel {P : α → Prop} {Q : β → Prop}
    (same : ∀ a ∈ a?, ∀ b, R a b → (P a ↔ Q b)) : (∀ a ∈ a?, P a) ↔ ∀ b ∈ b?, Q b := by
  cases h with
  | none => simp
  | some related => simpa using same _ rfl _ related

theorem eq_none_iff_of_rel : a? = none ↔ b? = none := by
  cases h <;> simp

end

theorem mem_of_mem_lastOf {key : String} {members : List Member} {m : Member}
    (h : m ∈ lastOf key members) : m ∈ members :=
  List.mem_of_mem_filter (List.mem_of_getLast? h)

/-- The last member of a key has the last value that is read under the key. -/
theorem lastOf_rel {members : List Member} {ms : List (String × Json)}
    (h : List.Forall₂ Member.HasEntry members ms) (key : String) :
    Option.Rel (fun m j => m.item.value.toJson? = some j) (lastOf key members)
      (valuesOf key ms).getLast? := by
  apply forall₂_getLast?
  induction h with
  | nil => exact .nil
  | @cons m p members ms entry _ ih =>
    obtain ⟨k, j⟩ := p
    obtain ⟨name, value⟩ := entry
    by_cases same : k = key
    · obtain rfl := same
      rw [valuesOf_cons_self, List.filter_cons_of_pos (by simpa using name)]
      exact .cons value ih
    · rw [valuesOf_cons_of_ne same, List.filter_cons_of_neg (by simpa [name] using same)]
      exact ih

/-! ## Texts of objects -/

/-- The text of an object with these members, white space around it. -/
structure IsObjectText (text : String) (members : List Member) : Prop where
  spaced : ∀ m ∈ members, m.IsSpaced
  named : ∀ m ∈ members, WritesString m.key m.name
  each : ∀ m ∈ members, TextOf m.item.core m.item.value
  laid : ∃ before body after, IsBlank before ∧ IsBlank after ∧
    Separated (members.map Member.chars) body ∧
      text.toList = before ++ ('\x7b' :: (body ++ ('\x7d' :: after)))

theorem ofText?_eq_object_iff {text : String} {ms : List (Option String × Document)} :
    Document.ofText? text = some (.object ms) ↔
      ∃ members, IsObjectText text members ∧ members.map Member.toPair = ms := by
  rw [ofText?_eq_some_iff]
  constructor
  · rintro ⟨⟨before, core, after, d⟩, rfl, ⟨blank, blank'⟩, written, chars⟩
    obtain _ | _ | _ | _ | _ | @⟨members, body, spaced, named, each, laid⟩ := written
    refine ⟨members, ⟨spaced, named, each, before, body, after, blank, blank', laid, ?_⟩, rfl⟩
    simpa [Item.chars] using chars
  · rintro ⟨members, ⟨spaced, named, each, before, body, after, blank, blank', laid, chars⟩, rfl⟩
    refine ⟨⟨before, _, after, _⟩, rfl, ⟨blank, blank'⟩, .object spaced named each laid, ?_⟩
    simpa [Item.chars] using chars

theorem ofText?_eq_some_object_iff {text : String} {ms : List (String × Json)} :
    ofText? text = some (.object ms) ↔
      ∃ members, IsObjectText text members ∧ List.Forall₂ Member.HasEntry members ms := by
  rw [ofText?, Option.bind_eq_some_iff]
  constructor
  · rintro ⟨d, read, kept⟩
    cases d with
    | object ms' =>
      obtain ⟨_, entries, same⟩ := Option.map_eq_some_iff.1 kept
      cases same
      obtain ⟨members, written, rfl⟩ := ofText?_eq_object_iff.1 read
      exact ⟨members, written, membersToJson?_toPair_eq_some_iff.1 entries⟩
    | _ => simp [Document.toJson?] at kept
  · rintro ⟨members, written, entries⟩
    refine ⟨_, ofText?_eq_object_iff.2 ⟨members, written, rfl⟩, ?_⟩
    rw [Document.toJson?, membersToJson?_toPair_eq_some_iff.2 entries, Option.map_some]

end Json

namespace Limits

open Json (IsObjectText lastOf)

/-! ## Texts of limits -/

/-- An object that gives these limits as its text stands: it has no keys but names of limits, and
the last value of each name is written in digits alone. What is not named is as usual, and rules
need parentheses and a length. -/
structure Describes (members : List Member) (l : Limits) : Prop where
  known : ∀ m ∈ members, ∃ f : Field, m.key = some f.key
  given : ∀ f : Field, ∀ m ∈ lastOf f.key members, WritesLimit (l.get f) m.item.core
  absent : ∀ f : Field, lastOf f.key members = none → l.get f = ({} : Limits).get f
  nesting : l.maxNestingDepth ≠ 0
  length : l.maxRuleLength ≠ 0

/-- A value that the reader holds inside an object: no number is too large, no surrogate alone, and
not too many arrays and objects are open at once. -/
def IsHeld (d : Document) : Prop := ∃ j, d.toJson? = some j ∧ j.depth < maxTextDepth

section
variable {text : String} {members : List Member} {ms : List (String × Json)} {l : Limits}

theorem validate_eq_ok_iff : l.validate = .ok () ↔ l.maxNestingDepth ≠ 0 ∧ l.maxRuleLength ≠ 0 := by
  unfold validate
  split
  · simp [*]
  · split <;> simp [*]

theorem describes_iff (each : ∀ m ∈ members, TextOf m.item.core m.item.value)
    (entries : List.Forall₂ Member.HasEntry members ms) :
    Describes members l ↔ States ms l ∧ l.validate = .ok () := by
  have known := Json.forall_mem_iff_of_forall₂ entries
    (P := fun m => ∃ f : Field, m.key = some f.key) (Q := fun p => ∃ f : Field, p.1 = f.key)
    fun m p entry => by simp [entry.1]
  have given (f : Field) : (∀ m ∈ lastOf f.key members, WritesLimit (l.get f) m.item.core) ↔
      ∀ j ∈ (valuesOf f.key ms).getLast?, limitOf j = .ok (l.get f) := by
    refine Json.forall_mem_iff_of_rel (Json.lastOf_rel entries f.key) fun m hm j value => ?_
    rw [limitOf_eq_ok_iff, ← toJson?_eq_limit_iff (each m (Json.mem_of_mem_lastOf hm)), value,
      Option.some_inj]
  have absent (f : Field) : lastOf f.key members = none ↔ valuesOf f.key ms = [] := by
    rw [Json.eq_none_iff_of_rel (Json.lastOf_rel entries f.key), List.getLast?_eq_none_iff]
  rw [validate_eq_ok_iff]
  constructor
  · intro h
    exact ⟨⟨known.1 h.known, fun f => (given f).1 (h.given f), fun f none =>
      h.absent f ((absent f).2 none)⟩, h.nesting, h.length⟩
  · rintro ⟨h, nesting, length⟩
    exact ⟨known.2 h.known, fun f => (given f).2 (h.given f), fun f none =>
      h.absent f ((absent f).1 none), nesting, length⟩

theorem depthOfMembers_lt_iff {n : Nat} (positive : 0 < n) :
    Json.depthOfMembers ms < n ↔ ∀ m ∈ ms, m.2.depth < n := by
  induction ms with
  | nil => simpa [Json.depthOfMembers] using positive
  | cons m ms ih =>
    obtain ⟨k, j⟩ := m
    rw [Json.depthOfMembers, Nat.max_lt, ih, List.forall_mem_cons]

theorem forall_isHeld_iff (entries : List.Forall₂ Member.HasEntry members ms) :
    (∀ m ∈ members, IsHeld m.item.value) ↔ (Json.object ms).depth ≤ maxTextDepth := by
  rw [Json.depth, Nat.succ_le_iff, depthOfMembers_lt_iff (by decide)]
  refine Json.forall_mem_iff_of_forall₂ entries fun m p entry => ?_
  simp [IsHeld, entry.2]

theorem exists_entries (known : ∀ m ∈ members, ∃ f : Field, m.key = some f.key)
    (held : ∀ m ∈ members, IsHeld m.item.value) :
    ∃ ms, List.Forall₂ Member.HasEntry members ms := by
  induction members with
  | nil => exact ⟨[], .nil⟩
  | cons m members ih =>
    obtain ⟨⟨f, key⟩, known⟩ := List.forall_mem_cons.1 known
    obtain ⟨⟨j, value, -⟩, held⟩ := List.forall_mem_cons.1 held
    obtain ⟨ms, entries⟩ := ih known held
    exact ⟨(f.key, j) :: ms, .cons ⟨key, value⟩ entries⟩

theorem ofText_eq_ok_iff_states : ofText text = .ok l ↔
    ∃ ms, Json.ofText? text = some (.object ms) ∧ (Json.object ms).depth ≤ maxTextDepth ∧
      States ms l ∧ l.validate = .ok () := by
  unfold ofText
  cases Json.ofText? text with
  | none => simp
  | some j =>
    dsimp only
    split
    · rename_i deep
      constructor
      · intro h
        cases h
      · rintro ⟨ms, same, depth, -⟩
        cases same
        omega
    · rename_i depth
      rw [bind_eq_ok_iff]
      constructor
      · rintro ⟨l', read, h⟩
        obtain ⟨⟨⟩, valid, h⟩ := exists_of_bind_eq_ok h
        cases h
        obtain ⟨ms, rfl, states⟩ := ofJson_eq_ok_iff.1 read
        exact ⟨ms, rfl, by omega, states, valid⟩
      · rintro ⟨ms, same, -, states, valid⟩
        cases same
        refine ⟨l, ofJson_object_eq_ok_iff.2 states, ?_⟩
        rw [valid]
        rfl

theorem ofText_eq_ok_iff : ofText text = .ok l ↔
    ∃ members, IsObjectText text members ∧ Describes members l ∧
      ∀ m ∈ members, IsHeld m.item.value := by
  rw [ofText_eq_ok_iff_states]
  constructor
  · rintro ⟨ms, read, depth, states⟩
    obtain ⟨members, written, entries⟩ := Json.ofText?_eq_some_object_iff.1 read
    exact ⟨members, written, (describes_iff written.each entries).2 states,
      (forall_isHeld_iff entries).2 depth⟩
  · rintro ⟨members, written, describes, held⟩
    obtain ⟨ms, entries⟩ := exists_entries describes.known held
    exact ⟨ms, Json.ofText?_eq_some_object_iff.2 ⟨members, written, entries⟩,
      (forall_isHeld_iff entries).1 held, (describes_iff written.each entries).1 describes⟩

end

/-! ## Limits written out -/

theorem ofText?_text_toJson (l : Limits) : Json.ofText? l.toJson.text = some l.toJson := by
  rw [Json.ofText?, Json.ofText?_text]
  simp [toJson, Json.document, Json.documentMembers, Document.toJson?, Document.membersToJson?,
    Number.ofUInt64, Number.reread?_integer]

theorem ofText_text_eq_ok_iff (l : Limits) :
    ofText l.toJson.text = .ok l ↔ l.validate = .ok () := by
  rw [ofText_eq_ok_iff_states]
  constructor
  · rintro ⟨ms, -, -, -, valid⟩
    exact valid
  · intro valid
    obtain ⟨ms, same, states⟩ := ofJson_eq_ok_iff.1 (ofJson_toJson l)
    refine ⟨ms, by rw [ofText?_text_toJson, same], ?_, states, valid⟩
    rw [← same]
    simp [toJson, Json.depth, Json.depthOfMembers, maxTextDepth]

/-! ## Texts that describe limits and are refused -/

/-- Every value of the object has to be held, also one that does not count. -/
theorem isHeld_of_ofText {text : String} {members : List Member} {l : Limits}
    (written : IsObjectText text members) (h : ofText text = .ok l) :
    ∀ m ∈ members, IsHeld m.item.value := by
  obtain ⟨ms, read, depth, -⟩ := ofText_eq_ok_iff_states.1 h
  rw [Json.ofText?, Json.ofText?_eq_object_iff.2 ⟨members, written, rfl⟩, Option.bind_some,
    Document.toJson?] at read
  obtain ⟨ms', entries, same⟩ := Option.map_eq_some_iff.1 read
  cases same
  exact (forall_isHeld_iff (Json.membersToJson?_toPair_eq_some_iff.1 entries)).2 depth

/-- The text gives limits as it stands, and the reader refuses it. -/
def IsRefused (text : String) (l : Limits) : Prop :=
  (∃ members, IsObjectText text members ∧ Describes members l) ∧ ∃ e, ofText text = .error e

/-- An object that names the cache twice, so that the first value does not count. -/
def renamed (core : List Char) : String :=
  String.ofList ('\x7b' :: ("\"cache_capacity\":".toList ++ core ++
    ",\"cache_capacity\":5".toList ++ ['\x7d']))

def cacheMember (core : List Char) (d : Document) : Member :=
  ⟨[], "\"cache_capacity\"".toList, [], some "cache_capacity", ⟨[], core, [], d⟩⟩

def five : NumberText := ⟨false, ['5'], none, none⟩

section
variable {core : List Char} {d : Document}

theorem chars_cacheMember : (cacheMember core d).chars = "\"cache_capacity\":".toList ++ core := by
  simp [cacheMember, Member.chars, Item.chars]

theorem isObjectText_renamed (written : TextOf core d) :
    IsObjectText (renamed core)
      [cacheMember core d, cacheMember ['5'] (.number five.toNumber?)] := by
  have blank : IsBlank [] := fun _ h => nomatch h
  have last : TextOf ['5'] (.number five.toNumber?) :=
    .number ⟨⟨by decide, List.forall_mem_singleton.2 (by decide), by decide,
      fun _ h => nomatch h⟩, [], .absent, rfl⟩
  have spaced (core : List Char) (d : Document) : (cacheMember core d).IsSpaced :=
    ⟨blank, blank, blank, blank⟩
  have named (core : List Char) (d : Document) :
      WritesString (cacheMember core d).key (cacheMember core d).name := by
    have read : Json.Reader.string? "cache_capacity\"".toList =
        some (some "cache_capacity", []) := by decide +kernel
    obtain ⟨name, same, named⟩ := Json.of_string? read
    rw [List.append_nil] at same
    rwa [← same] at named
  refine ⟨?_, ?_, ?_, [], _, [], blank, blank, .cons _ _, ?_⟩
  · exact List.forall_mem_cons.2 ⟨spaced _ _, List.forall_mem_singleton.2 (spaced _ _)⟩
  · exact List.forall_mem_cons.2 ⟨named _ _, List.forall_mem_singleton.2 (named _ _)⟩
  · exact List.forall_mem_cons.2 ⟨written, List.forall_mem_singleton.2 last⟩
  · have behind : Json.continued ["\"cache_capacity\":".toList ++ ['5']] =
        ",\"cache_capacity\":5".toList := by decide
    rw [chars_cacheMember, List.map_singleton, chars_cacheMember, behind]
    exact String.toList_ofList

theorem describes_renamed :
    Describes [cacheMember core d, cacheMember ['5'] (.number five.toNumber?)]
      { cacheCapacity := 5 } := by
  refine ⟨?_, fun f => ?_, fun f => ?_, by decide, by decide⟩
  · simp only [List.forall_mem_cons, List.not_mem_nil]
    exact ⟨⟨.capacity, rfl⟩, ⟨.capacity, rfl⟩, fun _ h => h.elim⟩
  · cases f <;> simp [lastOf, cacheMember, Field.key, WritesLimit, get]
    decide
  · cases f <;> simp [lastOf, cacheMember, Field.key, get]

theorem isRefused_renamed (written : TextOf core d) (h : ¬ IsHeld d) :
    IsRefused (renamed core) { cacheCapacity := 5 } := by
  have text := isObjectText_renamed written
  refine ⟨⟨_, text, describes_renamed⟩, ?_⟩
  cases read : ofText (renamed core) with
  | error e => exact ⟨e, rfl⟩
  | ok l => exact absurd (isHeld_of_ofText text read _ List.mem_cons_self) h

end

/-- One more array than so many, each in the next. -/
def nested : Nat → Json
  | 0 => .array []
  | n + 1 => .array [nested n]

def nestedText : Nat → List Char
  | 0 => ['[', ']']
  | n + 1 => '[' :: (nestedText n ++ [']'])

theorem textOf_nested (n : Nat) : TextOf (nestedText n) (nested n).document := by
  have blank : IsBlank [] := fun _ h => nomatch h
  induction n with
  | zero =>
    exact @TextOf.array [] _ (List.forall_mem_nil _) (List.forall_mem_nil _) (.empty blank)
  | succ n ih =>
    have laid := Separated.cons (nestedText n) []
    refine @TextOf.array [⟨[], nestedText n, [], (nested n).document⟩] _ ?_ ?_ ?_
    · simpa using ⟨blank, blank⟩
    · simpa using ih
    · simpa [Item.chars, Json.continued] using laid

theorem toJson?_nested (n : Nat) : (nested n).document.toJson? = some (nested n) := by
  induction n with
  | zero => rfl
  | succ n ih =>
    simp [nested, Json.document, Json.documentItems, Document.toJson?, Document.itemsToJson?, ih]

theorem depth_nested (n : Nat) : (nested n).depth = n + 1 := by
  induction n with
  | zero => rfl
  | succ n ih => simp [nested, Json.depth, Json.depthOfItems, ih]

end Limits

/-! ## The limits of a text -/

/-- **Limits from a text.** A text is read as limits just if it is the text of an object that gives
them and the reader holds the values of the object. Every other text is a fault of limits. An engine
can be created with limits from a text, and the text of limits is read as these if rules can meet
them. -/
theorem limits_from_text (text : String) :
    (∀ l, Limits.ofText text = .ok l ↔ ∃ members, Json.IsObjectText text members ∧
      Limits.Describes members l ∧ ∀ m ∈ members, Limits.IsHeld m.item.value) ∧
    ((∀ l, Limits.ofText text ≠ .ok l) →
      ∃ e, (Limits.ofText text).mapError RuleError.limits = .error (.limits e)) ∧
    (∀ l, Limits.ofText text = .ok l → Engine.create l = .ok (Engine.ofLimits l)) ∧
    ∀ l : Limits, Limits.ofText l.toJson.text = .ok l ↔ l.validate = .ok () := by
  refine ⟨fun l => Limits.ofText_eq_ok_iff, fun refused => ?_, fun l read => ?_,
    Limits.ofText_text_eq_ok_iff⟩
  · cases read : Limits.ofText text with
    | error e => exact ⟨e, rfl⟩
    | ok l => exact absurd read (refused l)
  · obtain ⟨ms, -, -, -, valid⟩ := Limits.ofText_eq_ok_iff_states.1 read
    rw [Engine.create, valid]
    rfl

/-- A number, a string and an array that are not held: a text is refused for one of them that does
not count. -/
theorem limits_described_and_refused :
    Limits.IsRefused (Limits.renamed "1e999".toList) { cacheCapacity := 5 } ∧
    Limits.IsRefused (Limits.renamed "\"\\ud800\"".toList) { cacheCapacity := 5 } ∧
    Limits.IsRefused (Limits.renamed (Limits.nestedText 126)) { cacheCapacity := 5 } := by
  refine ⟨?_, ?_, ?_⟩
  · have nines : ['9', '9', '9'].all Char.isDigit := by decide
    have power : WritesExponent (some 999) ['e', '9', '9', '9'] :=
      @WritesExponent.marked 'e' [] ['9', '9', '9'] false (.inl rfl) (.inl rfl) (by decide)
        (List.all_eq_true.1 nines)
    have written : WritesNumber ⟨false, ['1'], none, some 999⟩ "1e999".toList :=
      ⟨⟨by decide, List.forall_mem_singleton.2 (by decide), by decide, fun _ h => nomatch h⟩, _,
        power, rfl⟩
    refine Limits.isRefused_renamed (.number written) ?_
    have large : (NumberText.mk false ['1'] none (some 999)).toNumber?.isNone = true := by
      decide +kernel
    rintro ⟨j, value, -⟩
    rw [Document.toJson?, Option.isNone_iff_eq_none.1 large] at value
    cases value
  · have read : Json.Reader.string? "\\ud800\"".toList = some (none, []) := by
      decide +kernel
    obtain ⟨core, same, written⟩ := Json.of_string? read
    rw [List.append_nil] at same
    rw [← same] at written
    refine Limits.isRefused_renamed (.string written) ?_
    rintro ⟨j, value, -⟩
    cases value
  · refine Limits.isRefused_renamed (Limits.textOf_nested 126) ?_
    rintro ⟨j, value, depth⟩
    rw [Limits.toJson?_nested] at value
    cases value
    rw [Limits.depth_nested] at depth
    exact absurd depth (by decide)

theorem limits_from_text_partial :
    Limits.ofText "\x7b\"cache_capacity\": 0, \"max_nesting_depth\": 8\x7d" =
        .ok ⟨8, 65536, 0⟩ ∧
      Engine.create ⟨8, 65536, 0⟩ = .ok (Engine.ofLimits ⟨8, 65536, 0⟩) ∧
      ∃ e, (Limits.ofText "\x7b\"cache_capacity\": -1\x7d").mapError RuleError.limits =
        .error (.limits e) := by
  have read : Limits.ofText "\x7b\"cache_capacity\": 0, \"max_nesting_depth\": 8\x7d" =
      .ok ⟨8, 65536, 0⟩ := Token.eq_ok_of_toOption (by decide +kernel)
  have refused : (Limits.ofText "\x7b\"cache_capacity\": -1\x7d").toOption = none := by
    decide +kernel
  refine ⟨read, (limits_from_text _).2.2.1 _ read, (limits_from_text _).2.1 fun l h => ?_⟩
  rw [h] at refused
  cases refused

end RecordRules
