import Mathlib.Data.String.Basic
import Mathlib.Order.Compare
import RecordRules.Evaluation

/-!
# Comparators on ordered values

A comparator says of two values what its symbol shows. Texts have two orders, by their bytes and by
their code points, and these are one: a greater character has a greater code, which the code of no
other character begins.
-/

namespace RecordRules

/-! ## Comparators -/

namespace Comparator

variable {α : Type} [LinearOrder α]

/-- The relation in an order that the symbol of a comparator shows. -/
def Relation : Comparator → α → α → Prop
  | gt, a, b => b < a
  | lt, a, b => a < b
  | eq, a, b => a = b
  | lteq, a, b => a ≤ b
  | gteq, a, b => b ≤ a
  | neq, a, b => a ≠ b

instance (k : Comparator) (a b : α) : Decidable (k.Relation a b) :=
  match k with
  | gt => inferInstanceAs (Decidable (b < a))
  | lt => inferInstanceAs (Decidable (a < b))
  | eq => inferInstanceAs (Decidable (a = b))
  | lteq => inferInstanceAs (Decidable (a ≤ b))
  | gteq => inferInstanceAs (Decidable (b ≤ a))
  | neq => inferInstanceAs (Decidable (a ≠ b))

theorem holds_of_compares (k : Comparator) {o : Ordering} {a b : α} (h : o.Compares a b) :
    k.holds o = decide (k.Relation a b) := by
  rw [Bool.eq_iff_iff, decide_eq_true_iff]
  cases k with
  | gt => exact beq_iff_eq.trans h.eq_gt
  | lt => exact beq_iff_eq.trans h.eq_lt
  | eq => exact beq_iff_eq.trans h.eq_eq
  | lteq => exact bne_iff_ne.trans h.ne_gt
  | gteq => exact bne_iff_ne.trans h.ne_lt
  | neq => exact bne_iff_ne.trans h.eq_eq.not

theorem compares_compare (a b : α) : (compare a b).Compares a b := by
  rcases lt_trichotomy a b with less | same | greater
  · rwa [compare_lt_iff_lt.2 less]
  · rwa [compare_eq_iff_eq.2 same]
  · rwa [compare_gt_iff_gt.2 greater]

/-- Values that stand to each other as others do compare as those. -/
theorem compare_eq_of_le_iff {β : Type} [LinearOrder β] {a b : α} {c d : β} (h : a ≤ b ↔ c ≤ d)
    (h' : b ≤ a ↔ d ≤ c) : compare a b = compare c d := by
  have order := compares_compare c d
  cases hcd : compare c d with
  | lt => exact compare_lt_iff_lt.2 (not_le.1 (mt h'.1 (not_le.2 (order.eq_lt.1 hcd))))
  | eq =>
    have same := order.eq_eq.1 hcd
    exact compare_eq_iff_eq.2 (le_antisymm (h.2 same.le) (h'.2 same.ge))
  | gt => exact compare_gt_iff_gt.2 (not_le.1 (mt h.1 (not_le.2 (order.eq_gt.1 hcd))))

theorem holds_compare_eq (k : Comparator) (a b : α) :
    k.holds (compare a b) = decide (k.Relation a b) :=
  k.holds_of_compares (compares_compare a b)

/-- A greater value stays above what a smaller one is above. -/
theorem holds_of_le {k : Comparator} (upward : k = gt ∨ k = gteq) {a b c : α} (le : a ≤ b)
    (h : k.holds (compare a c) = true) : k.holds (compare b c) = true := by
  rw [holds_compare_eq, decide_eq_true_iff] at h ⊢
  rcases upward with rfl | rfl
  · exact lt_of_lt_of_le h le
  · exact le_trans h le

end Comparator

/-! ## Lists in lexicographic order -/

theorem compares_compare_list {α : Type} [LinearOrder α] (l l' : List α) :
    (compare l l').Compares l l' := by
  induction l generalizing l' with
  | nil =>
    cases l' with
    | nil => rfl
    | cons b l' => exact List.nil_lt_cons b l'
  | cons a l ih =>
    cases l' with
    | nil => exact List.nil_lt_cons a l
    | cons b l' =>
      rw [List.compare_cons_cons]
      rcases lt_trichotomy a b with less | rfl | greater
      · rw [compare_lt_iff_lt.2 less]
        exact List.cons_lt_cons_iff.2 (.inl less)
      · rw [compare_eq_iff_eq.2 rfl, Ordering.eq_then]
        specialize ih l'
        cases h : compare l l' with
        | lt => exact List.cons_lt_cons_iff.2 (.inr ⟨rfl, ih.eq_lt.1 h⟩)
        | eq => exact congrArg (a :: ·) (ih.eq_eq.1 h)
        | gt => exact List.cons_lt_cons_iff.2 (.inr ⟨rfl, ih.eq_gt.1 h⟩)
      · rw [compare_gt_iff_gt.2 greater]
        exact List.cons_lt_cons_iff.2 (.inl greater)

theorem compare_append_left {α : Type} [Ord α] [Std.ReflOrd α] (l xs ys : List α) :
    compare (l ++ xs) (l ++ ys) = compare xs ys := by
  induction l with
  | nil => rfl
  | cons a l ih =>
    rw [List.cons_append, List.cons_append, List.compare_cons_cons, Std.ReflOrd.compare_self,
      Ordering.eq_then, ih]

namespace Text

/-! ## Codes of characters -/

/-- A code with the order of the characters, whatever follows them. -/
structure KeepsOrder {α : Type} [Ord α] (code : Char → List α) : Prop where
  ne_nil (c : Char) : code c ≠ []
  compare_append (c d : Char) (xs ys : List α) :
    compare (code c ++ xs) (code d ++ ys) = (compare c d).then (compare xs ys)

/-- Coded texts compare as the texts do. -/
theorem KeepsOrder.compare_flatMap {α : Type} [Ord α] {code : Char → List α}
    (h : KeepsOrder code) (cs ds : List Char) :
    compare (cs.flatMap code) (ds.flatMap code) = compare cs ds := by
  induction cs generalizing ds with
  | nil =>
    cases ds with
    | nil => rfl
    | cons d ds =>
      obtain ⟨x, xs, hd⟩ := List.exists_cons_of_ne_nil (h.ne_nil d)
      rw [List.flatMap_cons, hd]
      rfl
  | cons c cs ih =>
    cases ds with
    | nil =>
      obtain ⟨x, xs, hc⟩ := List.exists_cons_of_ne_nil (h.ne_nil c)
      rw [List.flatMap_cons, hc]
      rfl
    | cons d ds =>
      rw [List.flatMap_cons, List.flatMap_cons, h.compare_append, ih, List.compare_cons_cons]

theorem compare_ofNat {m n : Nat} (hm : m < 256) (hn : n < 256) :
    compare (UInt8.ofNat m) (UInt8.ofNat n) = compare m n := by
  have toNat {n : Nat} (h : n < 256) : (UInt8.ofNat n).toNat = n := UInt8.toNat_ofNat_of_lt' h
  show compareOfLessAndEq _ _ = compareOfLessAndEq _ _
  simp only [compareOfLessAndEq, UInt8.lt_iff_toNat_lt, ← UInt8.toNat_inj, toNat hm, toNat hn]

theorem toNat_val_lt (c : Char) : c.val.toNat < 0x110000 := by
  rcases c.valid with low | high
  · exact Nat.lt_trans low (by decide)
  · exact high.2

theorem compare_utf8_of_lt {c d : Char} (h : c < d) (xs ys : List UInt8) :
    compare (String.utf8EncodeChar c ++ xs) (String.utf8EncodeChar d ++ ys) = .lt := by
  have less : c.val.toNat < d.val.toNat := h
  have bound := toNat_val_lt d
  unfold String.utf8EncodeChar
  generalize c.val.toNat = m at less
  generalize d.val.toNat = n at less bound
  have twoDigits (k : Nat) : k / 4096 = k / 64 / 64 := by omega
  have threeDigits (k : Nat) : k / 262144 = k / 64 / 64 / 64 := by omega
  simp only [twoDigits, threeDigits]
  -- A longer code has a greater first byte. Codes of one length are the digits to base 64, so the
  -- first digits that differ decide.
  split_ifs <;>
    simp (disch := omega) only [List.cons_append, List.nil_append, List.compare_cons_cons,
      compare_ofNat, Ordering.then_eq_lt, Nat.compare_eq_lt, Nat.compare_eq_eq] <;>
    omega

theorem keepsOrder_utf8 : KeepsOrder String.utf8EncodeChar where
  ne_nil _ := String.utf8EncodeChar_ne_nil
  compare_append c d xs ys := by
    rcases lt_trichotomy c d with less | rfl | greater
    · rw [compare_utf8_of_lt less, compare_lt_iff_lt.2 less, Ordering.lt_then]
    · rw [compare_append_left, compare_eq_iff_eq.2 rfl, Ordering.eq_then]
    · rw [Std.OrientedOrd.eq_swap, compare_utf8_of_lt greater, compare_gt_iff_gt.2 greater]
      rfl

theorem compare_toNat (c d : Char) : compare c.toNat d.toNat = compare c d := by
  show compareOfLessAndEq _ _ = compareOfLessAndEq _ _
  simp only [compareOfLessAndEq, Char.toNat_inj]
  rfl

theorem keepsOrder_codePoint : KeepsOrder fun c => [c.toNat] where
  ne_nil _ := List.cons_ne_nil _ _
  compare_append c d _ _ := by
    rw [← compare_toNat]
    exact List.compare_cons_cons

/-! ## Texts -/

def codePoints (s : String) : List Nat := s.toList.map Char.toNat

theorem bytes_eq_flatMap (s : String) : bytes s = s.toList.flatMap String.utf8EncodeChar := by
  have encoded : s.toUTF8 = s.toList.utf8Encode := by
    rw [String.toUTF8_eq_toByteArray, ← String.toByteArray_ofList, String.ofList_toList]
  rw [bytes, encoded]
  exact List.toList_data_toByteArray

theorem compareBytes_eq_compare_toList (s t : String) :
    compareBytes s t = compare s.toList t.toList := by
  rw [compareBytes, bytes_eq_flatMap, bytes_eq_flatMap, keepsOrder_utf8.compare_flatMap]

theorem compareBytes_eq_compare_codePoints (s t : String) :
    compareBytes s t = compare (codePoints s) (codePoints t) := by
  rw [compareBytes_eq_compare_toList, ← keepsOrder_codePoint.compare_flatMap]
  simp only [codePoints, List.map_eq_flatMap]

end Text

/-! ## Conditions on texts -/

/-- **Texts.** A condition says of a text how it stands to the literal in the order of code points,
though both are compared by their bytes: these are one order. -/
theorem Condition.evaluate_string (field : String) (k : Comparator) (s t : String) :
    Condition.evaluate ⟨field, k, .string s⟩ (.string t) =
      .ok (decide (k.Relation (Text.codePoints t) (Text.codePoints s))) ∧
    Text.compareBytes t s = compare (Text.codePoints t) (Text.codePoints s) := by
  have order := Text.compareBytes_eq_compare_codePoints t s
  have compares := compares_compare_list (Text.codePoints t) (Text.codePoints s)
  refine ⟨?_, order⟩
  rw [← order] at compares
  rw [← k.holds_of_compares compares]
  rfl

end RecordRules
