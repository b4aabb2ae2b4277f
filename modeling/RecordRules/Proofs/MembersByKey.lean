import Mathlib.Data.List.Induction
import RecordRules.Json.Basic

/-!
# What an object has under a key

What an object gives for a key is the last of what it has there. In normal form it has nothing else,
so nothing is lost as long as no key is repeated.
-/

namespace RecordRules.Json

/-- The values of all members of a key, in order. -/
def valuesOf (key : String) (ms : List (String × Json)) : List Json :=
  (ms.filter (·.1 == key)).map (·.2)

section
variable {key k : String} {j i : Json} {ms : List (String × Json)}

theorem valuesOf_cons (key k : String) (j : Json) (ms : List (String × Json)) :
    valuesOf key ((k, j) :: ms) = if k = key then j :: valuesOf key ms else valuesOf key ms := by
  by_cases h : k = key <;> simp [valuesOf, h]

theorem valuesOf_cons_self : valuesOf key ((key, j) :: ms) = j :: valuesOf key ms := by
  rw [valuesOf_cons, if_pos rfl]

theorem valuesOf_cons_of_ne (h : k ≠ key) : valuesOf key ((k, j) :: ms) = valuesOf key ms := by
  rw [valuesOf_cons, if_neg h]

theorem valuesOf_concat (key : String) (ms : List (String × Json)) (k : String) (j : Json) :
    valuesOf key (ms ++ [(k, j)]) = if k = key then valuesOf key ms ++ [j] else valuesOf key ms := by
  by_cases h : k = key <;> simp [valuesOf, h]

theorem mem_valuesOf : j ∈ valuesOf key ms ↔ (key, j) ∈ ms := by
  simp [valuesOf]

theorem mem_of_valuesOf_eq_singleton (h : valuesOf key ms = [j]) : (key, j) ∈ ms :=
  mem_valuesOf.1 (h ▸ List.mem_singleton_self j)

theorem valuesOf_eq_nil (h : ∀ m ∈ ms, m.1 ≠ key) : valuesOf key ms = [] := by
  simpa [valuesOf] using fun k j hm => h (k, j) hm

theorem field?_object (key : String) (ms : List (String × Json)) :
    (object ms).field? key = (valuesOf key ms).getLast? := by
  induction ms using List.reverseRecOn with
  | nil => rfl
  | append_singleton ms m ih =>
    obtain ⟨k, j⟩ := m
    change ms.reverse.lookup key = _ at ih
    change (ms ++ [(k, j)]).reverse.lookup key = _
    rw [valuesOf_concat, List.reverse_append, List.reverse_singleton, List.singleton_append,
      List.lookup_cons, ih]
    by_cases same : k = key
    · obtain rfl := same
      simp
    · have other : (key == k) = false := by simpa using Ne.symm same
      simp [same, other]

/-! ## Members in order -/

/-- Members in order of their keys, each key once. -/
def IsSorted (ms : List (String × Json)) : Prop := ms.Pairwise fun a b => compare a.1 b.1 = .lt

theorem insertMember_cons_of_lt (h : compare key k = .lt) :
    insertMember key j ((k, i) :: ms) = (key, j) :: (k, i) :: ms := by
  rw [insertMember, h]

theorem insertMember_cons_self : insertMember key j ((key, i) :: ms) = (key, j) :: ms := by
  rw [insertMember, Std.ReflOrd.compare_self]

theorem insertMember_cons_of_gt (h : compare k key = .lt) :
    insertMember key j ((k, i) :: ms) = (k, i) :: insertMember key j ms := by
  rw [insertMember, Std.OrientedCmp.gt_iff_lt.2 h]

theorem compare_cases (key k : String) :
    compare key k = .lt ∨ key = k ∨ compare k key = .lt := by
  cases order : compare key k with
  | lt => exact .inl rfl
  | eq => exact .inr (.inl (Std.LawfulEqOrd.eq_of_compare order))
  | gt => exact .inr (.inr (Std.OrientedCmp.gt_iff_lt.1 order))

theorem ne_of_compare_eq_lt (h : compare key k = .lt) : k ≠ key := by
  rintro rfl
  rw [Std.ReflOrd.compare_self] at h
  cases h

theorem eq_or_mem_of_mem_insertMember {m : String × Json} (h : m ∈ insertMember key j ms) :
    m = (key, j) ∨ m ∈ ms := by
  induction ms with
  | nil => exact .inl (List.mem_singleton.1 h)
  | cons first ms ih =>
    obtain ⟨k, i⟩ := first
    rcases compare_cases key k with order | rfl | order
    · rw [insertMember_cons_of_lt order] at h
      exact List.mem_cons.1 h
    · rw [insertMember_cons_self] at h
      exact (List.mem_cons.1 h).imp_right (List.mem_cons_of_mem _)
    · rw [insertMember_cons_of_gt order] at h
      rcases List.mem_cons.1 h with rfl | h
      · exact .inr List.mem_cons_self
      · exact (ih h).imp_right (List.mem_cons_of_mem _)

theorem IsSorted.insertMember (h : IsSorted ms) (key : String) (j : Json) :
    IsSorted (insertMember key j ms) := by
  induction ms with
  | nil => exact List.pairwise_singleton ..
  | cons first ms ih =>
    obtain ⟨k, i⟩ := first
    obtain ⟨least, rest⟩ := List.pairwise_cons.1 h
    rcases compare_cases key k with order | rfl | order
    · rw [insertMember_cons_of_lt order]
      refine List.pairwise_cons.2 ⟨?_, h⟩
      exact List.forall_mem_cons.2 ⟨order, fun m hm => Std.TransCmp.lt_trans order (least m hm)⟩
    · rw [insertMember_cons_self]
      exact List.pairwise_cons.2 ⟨least, rest⟩
    · rw [insertMember_cons_of_gt order]
      refine List.pairwise_cons.2 ⟨?_, ih rest⟩
      intro m hm
      rcases eq_or_mem_of_mem_insertMember hm with rfl | hm
      · exact order
      · exact least m hm

/-- A member that is put in order takes the place of those of its key. -/
theorem IsSorted.valuesOf_insertMember_self (h : IsSorted ms) (key : String) (j : Json) :
    valuesOf key (Json.insertMember key j ms) = [j] := by
  induction ms with
  | nil => exact valuesOf_cons_self
  | cons first ms ih =>
    obtain ⟨k, i⟩ := first
    obtain ⟨least, rest⟩ := List.pairwise_cons.1 h
    rcases compare_cases key k with order | rfl | order
    · have absent : ∀ m ∈ (k, i) :: ms, m.1 ≠ key := by
        refine List.forall_mem_cons.2 ⟨ne_of_compare_eq_lt order, fun m hm => ?_⟩
        exact ne_of_compare_eq_lt (Std.TransCmp.lt_trans order (least m hm))
      rw [insertMember_cons_of_lt order, valuesOf_cons_self, valuesOf_eq_nil absent]
    · have absent : ∀ m ∈ ms, m.1 ≠ key := fun m hm => ne_of_compare_eq_lt (least m hm)
      rw [insertMember_cons_self, valuesOf_cons_self, valuesOf_eq_nil absent]
    · have other : k ≠ key := (ne_of_compare_eq_lt order).symm
      rw [insertMember_cons_of_gt order, valuesOf_cons_of_ne other, ih rest]

theorem valuesOf_insertMember_of_ne (h : k ≠ key) (j : Json) (ms : List (String × Json)) :
    valuesOf key (insertMember k j ms) = valuesOf key ms := by
  induction ms with
  | nil => exact valuesOf_cons_of_ne h
  | cons first ms ih =>
    obtain ⟨k', i⟩ := first
    rcases compare_cases k k' with order | rfl | order
    · rw [insertMember_cons_of_lt order, valuesOf_cons_of_ne h]
    · rw [insertMember_cons_self, valuesOf_cons_of_ne h, valuesOf_cons_of_ne h]
    · rw [insertMember_cons_of_gt order]
      by_cases same : k' = key
      · obtain rfl := same
        rw [valuesOf_cons_self, valuesOf_cons_self, ih]
      · rw [valuesOf_cons_of_ne same, valuesOf_cons_of_ne same, ih]

/-! ## The normal form of an object -/

/-- Members put in order one after the other. -/
def inOrder (ms : List (String × Json)) : List (String × Json) :=
  ms.foldl (fun ms (key, j) => insertMember key j ms) []

theorem inOrder_concat (ms : List (String × Json)) (k : String) (j : Json) :
    inOrder (ms ++ [(k, j)]) = insertMember k j (inOrder ms) := by
  rw [inOrder, List.foldl_append]
  rfl

theorem isSorted_inOrder (ms : List (String × Json)) : IsSorted (inOrder ms) := by
  induction ms using List.reverseRecOn with
  | nil => exact List.Pairwise.nil
  | append_singleton ms m ih =>
    rw [inOrder_concat]
    exact ih.insertMember m.1 m.2

theorem valuesOf_inOrder (key : String) (ms : List (String × Json)) :
    valuesOf key (inOrder ms) = (valuesOf key ms).getLast?.toList := by
  induction ms using List.reverseRecOn with
  | nil => rfl
  | append_singleton ms m ih =>
    obtain ⟨k, j⟩ := m
    rw [inOrder_concat, valuesOf_concat]
    by_cases same : k = key
    · obtain rfl := same
      rw [(isSorted_inOrder ms).valuesOf_insertMember_self, if_pos rfl, List.getLast?_concat]
      rfl
    · rw [valuesOf_insertMember_of_ne same, if_neg same, ih]

theorem sortedItems_eq_map (items : List Json) : sortedItems items = items.map sorted := by
  induction items with
  | nil => rfl
  | cons j items ih => rw [sortedItems, ih, List.map_cons]

theorem valuesOf_sortedMembers (key : String) (ms : List (String × Json)) :
    valuesOf key (sortedMembers ms) = (valuesOf key ms).map sorted := by
  induction ms with
  | nil => rfl
  | cons m ms ih =>
    obtain ⟨k, j⟩ := m
    rw [sortedMembers]
    by_cases same : k = key
    · obtain rfl := same
      rw [valuesOf_cons_self, valuesOf_cons_self, List.map_cons, ih]
    · rw [valuesOf_cons_of_ne same, valuesOf_cons_of_ne same, ih]

theorem sorted_object (ms : List (String × Json)) :
    (object ms).sorted = object (inOrder (sortedMembers ms)) := by
  rw [sorted]
  rfl

theorem sorted_array (items : List Json) : (array items).sorted = array (items.map sorted) := by
  rw [sorted, sortedItems_eq_map]

theorem valuesOf_normal (key : String) (ms : List (String × Json)) :
    valuesOf key (inOrder (sortedMembers ms)) = ((valuesOf key ms).map sorted).getLast?.toList := by
  rw [valuesOf_inOrder, valuesOf_sortedMembers]

theorem valuesOf_normal_of_eq_singleton (h : valuesOf key ms = [j]) :
    valuesOf key (inOrder (sortedMembers ms)) = [j.sorted] := by
  rw [valuesOf_normal, h]
  rfl

theorem sorted_eq_null_iff : j.sorted = null ↔ j = null := by
  cases j <;> simp [sorted]

theorem sorted_eq_string_iff {s : String} : j.sorted = string s ↔ j = string s := by
  cases j <;> simp [sorted]

theorem sorted_eq_object_iff {ms' : List (String × Json)} :
    j.sorted = object ms' ↔ ∃ ms, j = object ms ∧ inOrder (sortedMembers ms) = ms' := by
  cases j with
  | object ms => simp [sorted_object]
  | _ => simp [sorted]

end

/-! ## Values without repeated keys -/

mutual

/-- Whether no object in a value has two members of one key. -/
def hasUniqueKeys : Json → Bool
  | array items => hasUniqueKeysItems items
  | object members => hasUniqueKeysMembers members
  | _ => true

def hasUniqueKeysItems : List Json → Bool
  | [] => true
  | j :: rest => j.hasUniqueKeys && hasUniqueKeysItems rest

def hasUniqueKeysMembers : List (String × Json) → Bool
  | [] => true
  | (key, j) :: rest =>
    rest.all (·.1 != key) && j.hasUniqueKeys && hasUniqueKeysMembers rest

end

section
variable {ms : List (String × Json)}

theorem hasUniqueKeys_item {items : List Json} (h : (array items).hasUniqueKeys) :
    ∀ j ∈ items, j.hasUniqueKeys := by
  rw [hasUniqueKeys] at h
  induction items with
  | nil => exact List.forall_mem_nil _
  | cons j items ih =>
    rw [hasUniqueKeysItems, Bool.and_eq_true] at h
    exact List.forall_mem_cons.2 ⟨h.1, ih h.2⟩

theorem hasUniqueKeysMembers_cons {m : String × Json} (h : hasUniqueKeysMembers (m :: ms)) :
    (∀ m' ∈ ms, m'.1 ≠ m.1) ∧ m.2.hasUniqueKeys ∧ hasUniqueKeysMembers ms := by
  obtain ⟨key, j⟩ := m
  simpa [hasUniqueKeysMembers, and_assoc] using h

theorem hasUniqueKeys_member (h : (object ms).hasUniqueKeys) : ∀ m ∈ ms, m.2.hasUniqueKeys := by
  rw [hasUniqueKeys] at h
  induction ms with
  | nil => exact List.forall_mem_nil _
  | cons m ms ih =>
    obtain ⟨-, first, rest⟩ := hasUniqueKeysMembers_cons h
    exact List.forall_mem_cons.2 ⟨first, ih rest⟩

theorem length_valuesOf_le_one (h : (object ms).hasUniqueKeys) (key : String) :
    (valuesOf key ms).length ≤ 1 := by
  rw [hasUniqueKeys] at h
  induction ms with
  | nil => exact Nat.zero_le 1
  | cons m ms ih =>
    obtain ⟨others, -, rest⟩ := hasUniqueKeysMembers_cons h
    obtain ⟨k, j⟩ := m
    by_cases same : k = key
    · obtain rfl := same
      rw [valuesOf_cons_self, valuesOf_eq_nil others]
      exact Nat.le_refl 1
    · rw [valuesOf_cons_of_ne same]
      exact ih rest

/-- Where no key is repeated, an object has under a key what its normal form has there. -/
theorem map_sorted_valuesOf (h : (object ms).hasUniqueKeys) (key : String) :
    (valuesOf key ms).map sorted = valuesOf key (inOrder (sortedMembers ms)) := by
  have short := length_valuesOf_le_one h key
  rw [valuesOf_normal]
  generalize valuesOf key ms = js at short ⊢
  rcases js with _ | ⟨j, _ | ⟨j', rest⟩⟩
  · rfl
  · rfl
  · simp at short

theorem exists_of_valuesOf_normal (h : (object ms).hasUniqueKeys) {key : String} {i : Json}
    (hi : valuesOf key (inOrder (sortedMembers ms)) = [i]) :
    ∃ j, valuesOf key ms = [j] ∧ j.sorted = i := by
  rw [← map_sorted_valuesOf h] at hi
  exact List.map_eq_singleton_iff.1 hi

theorem exists_of_inOrder_eq_singleton (h : (object ms).hasUniqueKeys) {key : String} {i : Json}
    (hi : inOrder (sortedMembers ms) = [(key, i)]) : ∃ j, ms = [(key, j)] ∧ j.sorted = i := by
  have keys : ∀ m ∈ ms, m.1 = key := by
    intro m hm
    apply Decidable.byContradiction
    intro other
    have absent : (valuesOf m.1 ms).map sorted = [] := by
      rw [map_sorted_valuesOf h, hi, valuesOf_cons_of_ne (Ne.symm other)]
      rfl
    have found := mem_valuesOf.2 hm
    rw [List.map_eq_nil_iff.1 absent] at found
    cases found
  rcases ms with _ | ⟨⟨k, j⟩, rest⟩
  · cases hi
  · obtain ⟨rfl, keys⟩ := List.forall_mem_cons.1 keys
    obtain ⟨others, -⟩ := hasUniqueKeysMembers_cons (by simpa [hasUniqueKeys] using h)
    obtain rfl : rest = [] := List.eq_nil_iff_forall_not_mem.2 fun m hm => others m hm (keys m hm)
    cases hi
    exact ⟨j, rfl, rfl⟩

end

end RecordRules.Json
