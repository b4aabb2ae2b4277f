import RecordRules.Limits
import RecordRules.Proofs.MembersByKey
import RecordRules.Proofs.Results

/-!
# Limits by their names

What an object states of limits, whatever the order of its members: each key is the name of a limit,
and the last value under a name is that limit. Main statement: an object is read as limits just if
it states them.
-/

namespace RecordRules.Limits

open Json (valuesOf valuesOf_cons_self valuesOf_cons_of_ne valuesOf_eq_nil valuesOf_normal
  mem_valuesOf inOrder sortedMembers IsSorted isSorted_inOrder sorted_object ne_of_compare_eq_lt)

/-! ## One limit -/

inductive Field
  | nesting
  | length
  | capacity
  deriving DecidableEq

def Field.key : Field → String
  | nesting => "max_nesting_depth"
  | length => "max_rule_length"
  | capacity => "cache_capacity"

def get (l : Limits) : Field → UInt64
  | .nesting => l.maxNestingDepth
  | .length => l.maxRuleLength
  | .capacity => l.cacheCapacity

def set (l : Limits) (n : UInt64) : Field → Limits
  | .nesting => { l with maxNestingDepth := n }
  | .length => { l with maxRuleLength := n }
  | .capacity => { l with cacheCapacity := n }

variable {l l' : Limits} {n : UInt64} {f g : Field}

@[simp] theorem get_set_self : (l.set n f).get f = n := by
  cases f <;> rfl

@[simp] theorem get_set_of_ne (h : g ≠ f) : (l.set n f).get g = l.get g := by
  cases f <;> cases g <;> first | rfl | exact absurd rfl h

theorem eq_of_get (h : ∀ f, l.get f = l'.get f) : l = l' := by
  obtain ⟨nesting, length, capacity⟩ := l
  obtain ⟨nesting', length', capacity'⟩ := l'
  obtain rfl : nesting = nesting' := h .nesting
  obtain rfl : length = length' := h .length
  obtain rfl : capacity = capacity' := h .capacity
  rfl

theorem Field.key_injective (h : f.key = g.key) : f = g := by
  cases f <;> cases g <;> first | rfl | exact absurd h (by decide)

/-- A limit is a whole number of 64 bits, and nothing else is one. -/
theorem limitOf_eq_ok_iff {j : Json} : limitOf j = .ok n ↔ j = .number (.ofUInt64 n) := by
  constructor
  · intro h
    unfold limitOf at h
    split at h
    · rename_i z low high
      split at h
      · cases h
      · rename_i nonneg
        cases h
        have small : z.toNat < UInt64.size := by omega
        simp only [Json.Number.ofUInt64, UInt64.toNat_ofNat_of_lt' small,
          Int.toNat_of_nonneg (Int.not_lt.1 nonneg)]
    · cases h
  · rintro rfl
    simp [limitOf, Json.Number.ofUInt64]

theorem setMember_key (l : Limits) (f : Field) (j : Json) :
    l.setMember f.key j = (l.set · f) <$> limitOf j := by
  cases f <;> simp [setMember, Field.key, set]

theorem setMember_eq_ok_iff {key : String} {j : Json} : l.setMember key j = .ok l' ↔
    ∃ f : Field, key = f.key ∧ ∃ n, limitOf j = .ok n ∧ l.set n f = l' := by
  constructor
  · intro h
    have named : ∃ f : Field, key = f.key := by
      unfold setMember at h
      split at h
      · exact ⟨.nesting, ‹_›⟩
      · split at h
        · exact ⟨.length, ‹_›⟩
        · split at h
          · exact ⟨.capacity, ‹_›⟩
          · cases h
    obtain ⟨f, rfl⟩ := named
    rw [setMember_key] at h
    exact ⟨f, rfl, exists_of_map_eq_ok h⟩
  · rintro ⟨f, rfl, h⟩
    rw [setMember_key]
    exact map_eq_ok_iff.2 h

/-! ## Members that come each once -/

/-- What members make of limits when no key is repeated. -/
structure Changes (ms : List (String × Json)) (l l' : Limits) : Prop where
  known : ∀ m ∈ ms, ∃ f : Field, m.1 = f.key
  given : ∀ f : Field, ∀ j ∈ valuesOf f.key ms, limitOf j = .ok (l'.get f)
  absent : ∀ f : Field, valuesOf f.key ms = [] → l'.get f = l.get f

section
variable {ms : List (String × Json)} {j : Json}

theorem changes_nil_iff : Changes [] l l' ↔ l = l' := by
  constructor
  · intro h
    exact eq_of_get fun f => (h.absent f rfl).symm
  · rintro rfl
    exact ⟨List.forall_mem_nil _, fun _ => List.forall_mem_nil _, fun _ _ => rfl⟩

theorem changes_cons_iff (single : ∀ m ∈ ms, m.1 ≠ f.key) : Changes ((f.key, j) :: ms) l l' ↔
    limitOf j = .ok (l'.get f) ∧ Changes ms (l.set (l'.get f) f) l' := by
  have none := valuesOf_eq_nil single
  have others (g : Field) (other : g ≠ f) :
      valuesOf g.key ((f.key, j) :: ms) = valuesOf g.key ms :=
    valuesOf_cons_of_ne fun same => other (Field.key_injective same).symm
  have self : valuesOf f.key ((f.key, j) :: ms) = [j] := by rw [valuesOf_cons_self, none]
  constructor
  · intro h
    refine ⟨h.given f j (by rw [self]; exact List.mem_singleton_self j),
      (List.forall_mem_cons.1 h.known).2, fun g i hi => ?_, fun g nothing => ?_⟩
    · have other : g ≠ f := by
        rintro rfl
        rw [none] at hi
        cases hi
      exact h.given g i (by rwa [others g other])
    · by_cases same : g = f
      · rw [same, get_set_self]
      · rw [get_set_of_ne same]
        exact h.absent g (by rwa [others g same])
  · rintro ⟨read, h⟩
    refine ⟨List.forall_mem_cons.2 ⟨⟨f, rfl⟩, h.known⟩, fun g i hi => ?_, fun g nothing => ?_⟩
    · by_cases same : g = f
      · rw [same, self, List.mem_singleton] at hi
        rw [hi, same, read]
      · rw [others g same] at hi
        exact h.given g i hi
    · have other : g ≠ f := by
        rintro rfl
        rw [self] at nothing
        cases nothing
      rw [others g other] at nothing
      rw [h.absent g nothing, get_set_of_ne other]

theorem foldlM_setMember_eq_ok_iff (sorted : IsSorted ms) :
    ms.foldlM (fun l m => l.setMember m.1 m.2) l = .ok l' ↔ Changes ms l l' := by
  induction ms generalizing l with
  | nil => rw [List.foldlM_nil, pure_eq_ok_iff, changes_nil_iff]
  | cons m ms ih =>
    obtain ⟨key, j⟩ := m
    obtain ⟨least, others⟩ := List.pairwise_cons.1 sorted
    have single : ∀ m ∈ ms, m.1 ≠ key := fun m hm => ne_of_compare_eq_lt (least m hm)
    rw [List.foldlM_cons, bind_eq_ok_iff]
    constructor
    · rintro ⟨next, step, rest⟩
      obtain ⟨f, rfl, n, read, rfl⟩ := setMember_eq_ok_iff.1 step
      have rest := (ih others).1 rest
      have last : l'.get f = n := by rw [rest.absent f (valuesOf_eq_nil single), get_set_self]
      exact (changes_cons_iff single).2 ⟨by rw [last, read], by rwa [last]⟩
    · intro h
      obtain ⟨f, rfl⟩ := h.known _ List.mem_cons_self
      obtain ⟨read, rest⟩ := (changes_cons_iff single).1 h
      exact ⟨_, setMember_eq_ok_iff.2 ⟨f, rfl, _, read, rfl⟩, (ih others).2 rest⟩

/-! ## Members as they are written -/

theorem limitOf_sorted (j : Json) : limitOf j.sorted = .ok n ↔ limitOf j = .ok n := by
  rw [limitOf_eq_ok_iff, limitOf_eq_ok_iff]
  cases j <;> simp [Json.sorted]

/-- An object states these limits: nothing but limits is named, the last value of each name
counts, and what is not named is as usual. -/
structure States (ms : List (String × Json)) (l : Limits) : Prop where
  known : ∀ m ∈ ms, ∃ f : Field, m.1 = f.key
  given : ∀ f : Field, ∀ j ∈ (valuesOf f.key ms).getLast?, limitOf j = .ok (l.get f)
  absent : ∀ f : Field, valuesOf f.key ms = [] → l.get f = ({} : Limits).get f

theorem mem_valuesOf_normal_iff {key : String} {i : Json} :
    i ∈ valuesOf key (inOrder (sortedMembers ms)) ↔
      ∃ j ∈ (valuesOf key ms).getLast?, j.sorted = i := by
  rw [valuesOf_normal, List.getLast?_map]
  simp

theorem valuesOf_normal_eq_nil_iff {key : String} :
    valuesOf key (inOrder (sortedMembers ms)) = [] ↔ valuesOf key ms = [] := by
  rw [valuesOf_normal, Option.toList_eq_nil_iff, List.getLast?_eq_none_iff, List.map_eq_nil_iff]

theorem forall_key_normal_iff {P : String → Prop} :
    (∀ m ∈ inOrder (sortedMembers ms), P m.1) ↔ ∀ m ∈ ms, P m.1 := by
  have key (ms : List (String × Json)) : (∀ m ∈ ms, P m.1) ↔ ∀ k, valuesOf k ms ≠ [] → P k := by
    constructor
    · intro h k some
      obtain ⟨j, hj⟩ := List.exists_mem_of_ne_nil _ some
      exact h _ (mem_valuesOf.1 hj)
    · rintro h ⟨k, j⟩ hm
      exact h k (List.ne_nil_of_mem (mem_valuesOf.2 hm))
  rw [key, key]
  simp only [ne_eq, valuesOf_normal_eq_nil_iff]

theorem changes_normal_iff : Changes (inOrder (sortedMembers ms)) {} l ↔ States ms l := by
  have known : (∀ m ∈ inOrder (sortedMembers ms), ∃ f : Field, m.1 = f.key) ↔
      ∀ m ∈ ms, ∃ f : Field, m.1 = f.key :=
    forall_key_normal_iff (P := fun k => ∃ f : Field, k = f.key)
  constructor
  · intro h
    refine ⟨known.1 h.known, fun f j hj => ?_, fun f none => ?_⟩
    · exact (limitOf_sorted j).1 (h.given f _ (mem_valuesOf_normal_iff.2 ⟨j, hj, rfl⟩))
    · exact h.absent f (valuesOf_normal_eq_nil_iff.2 none)
  · intro h
    refine ⟨known.2 h.known, fun f i hi => ?_, fun f none => ?_⟩
    · obtain ⟨j, hj, rfl⟩ := mem_valuesOf_normal_iff.1 hi
      exact (limitOf_sorted j).2 (h.given f j hj)
    · exact h.absent f (valuesOf_normal_eq_nil_iff.1 none)

theorem ofJson_object_eq_ok_iff : ofJson (.object ms) = .ok l ↔ States ms l := by
  rw [ofJson, sorted_object, ← changes_normal_iff]
  exact foldlM_setMember_eq_ok_iff (isSorted_inOrder _)

/-- Nothing but an object states limits. -/
theorem ofJson_eq_ok_iff : ofJson j = .ok l ↔ ∃ ms, j = .object ms ∧ States ms l := by
  constructor
  · intro h
    cases j with
    | object ms => exact ⟨ms, rfl, ofJson_object_eq_ok_iff.1 h⟩
    | _ => cases h
  · rintro ⟨ms, rfl, h⟩
    exact ofJson_object_eq_ok_iff.2 h

theorem ofJson_toJson (l : Limits) : ofJson l.toJson = .ok l := by
  rw [toJson, ofJson_object_eq_ok_iff]
  have values (f : Field) : valuesOf f.key
      [("max_nesting_depth", .number (.ofUInt64 l.maxNestingDepth)),
        ("max_rule_length", .number (.ofUInt64 l.maxRuleLength)),
        ("cache_capacity", .number (.ofUInt64 l.cacheCapacity))] =
      [.number (.ofUInt64 (l.get f))] := by
    cases f <;> rfl
  refine ⟨?_, fun f j hj => ?_, fun f none => ?_⟩
  · simp only [List.forall_mem_cons, List.not_mem_nil]
    exact ⟨⟨.nesting, rfl⟩, ⟨.length, rfl⟩, ⟨.capacity, rfl⟩, fun _ h => h.elim⟩
  · rw [values] at hj
    cases hj
    exact limitOf_eq_ok_iff.2 rfl
  · rw [values] at none
    cases none

end

end RecordRules.Limits
