import RecordRules.Proofs.Exchange
import RecordRules.Proofs.Overflow
import RecordRules.Proofs.Results

/-!
# Trees read from JSON

Whatever the JSON and the route, the literals of a tree that is read from it are writable: a JSON
number is finite, and a literal that mixes quotes is refused.
-/

namespace RecordRules

/-- Numbers of 64 bits are far from overflow. -/
theorem Json.Number.isFinite_toBinary64 (n : Json.Number) : n.toBinary64.IsFinite := by
  cases n with
  | float x finite => exact finite
  | integer n low high =>
    have room : 2 ^ 64 < Magnitude.overflow := by decide +kernel
    have least : Int64.minValue.toInt = -2 ^ 63 := by decide
    have most : UInt64.size = 2 ^ 64 := rfl
    apply (Magnitude.isFinite_nearest_iff Nat.one_pos).2
    omega

namespace Exchange

/-! ## What a node carries -/

theorem isFinite_of_literal? {j : Json} {l : Literal} (h : literal? j = some l) : l.IsFinite := by
  unfold literal? at h
  split at h
  · rename_i n
    cases h
    cases n with
    | float x finite => exact finite
    | integer m low high =>
      dsimp only
      split
      · trivial
      · exact Json.Number.isFinite_toBinary64 (.integer m low high)
  · cases h
    trivial
  · cases h

theorem isFinite_of_condition? {field comparator literal : Json} {c : Condition}
    (h : condition? field comparator literal = some c) : c.literal.IsFinite := by
  unfold condition? at h
  split at h
  · obtain ⟨name, -, h⟩ := Option.bind_eq_some_iff.1 h
    obtain ⟨l, hl, h⟩ := Option.bind_eq_some_iff.1 h
    cases h
    exact isFinite_of_literal? hl
  · cases h

theorem isFinite_of_conditionOf? {j : Json} {c : Condition} (h : conditionOf? j = some c) :
    c.literal.IsFinite := by
  unfold conditionOf? at h
  split at h
  · obtain ⟨field, -, h⟩ := Option.bind_eq_some_iff.1 h
    obtain ⟨comparator, -, h⟩ := Option.bind_eq_some_iff.1 h
    obtain ⟨literal, -, h⟩ := Option.bind_eq_some_iff.1 h
    exact isFinite_of_condition? h
  · exact isFinite_of_condition? h
  · cases h

/-- A node value with a finite literal, if it has a literal. -/
def NodeValue.IsFinite : NodeValue → Prop
  | condition c => c.literal.IsFinite
  | combinator _ => True

theorem isFinite_of_nodeValue {j : Json} {v : NodeValue} (h : nodeValue j = .ok v) :
    v.IsFinite := by
  unfold nodeValue at h
  split at h
  · cases h
    exact isFinite_of_conditionOf? ‹_›
  · split at h
    · cases h
      trivial
    · cases h

/-! ## Shapes -/

/-- A shape whose tree is writable, if it has a tree. -/
def Shape.IsSound (s : Shape) : Prop := ∀ t, s.toTree = .ok t → t.IsWritable

theorem Shape.isSound_node {kind : NodeKind} {left right : Option Shape} {value : NodeValue}
    (hleft : ∀ s ∈ left, s.IsSound) (hright : ∀ s ∈ right, s.IsSound) (hvalue : value.IsFinite) :
    (node kind left right value).IsSound := by
  intro t ht
  cases kind with
  | operand =>
    cases value with
    | combinator k => cases ht
    | condition c =>
      unfold toTree at ht
      split at ht
      · cases ht
      · split at ht
        · cases ht
        · rename_i quotes
          cases ht
          intro c' hc'
          obtain rfl := List.mem_singleton.1 hc'
          exact Literal.isWritable_iff.2 ⟨hvalue, Bool.eq_false_iff.2 quotes⟩
  | operator =>
    cases value with
    | condition c =>
      rw [toTree] at ht
      cases ht
    | combinator k =>
      rcases left with _ | left
      · cases ht
      rcases right with _ | right
      · cases ht
      unfold toTree at ht
      obtain ⟨l, hl, ht⟩ := exists_of_bind_eq_ok ht
      obtain ⟨r, hr, ht⟩ := exists_of_bind_eq_ok ht
      cases ht
      exact Tree.isWritable_operator.2 ⟨hleft left rfl l hl, hright right rfl r hr⟩

/-- Members met so far that make a sound shape. -/
structure Slots.IsSound (s : Slots) : Prop where
  left : ∀ o ∈ s.left, ∀ child ∈ o, child.IsSound
  right : ∀ o ∈ s.right, ∀ child ∈ o, child.IsSound
  value : ∀ v ∈ s.value, v.IsFinite

theorem Slots.isSound_empty : ({} : Slots).IsSound := ⟨nofun, nofun, nofun⟩

theorem Slots.IsSound.close {s : Slots} (h : s.IsSound) {shape : Shape}
    (hclose : s.close = .ok shape) : shape.IsSound := by
  unfold Slots.close at hclose
  split at hclose
  · cases hclose
  · cases hclose
  · rename_i kind value hkind hvalue
    cases hclose
    have join {o : Option (Option Shape)} (ho : ∀ p ∈ o, ∀ child ∈ p, child.IsSound) :
        ∀ child ∈ o.join, child.IsSound := fun child hchild =>
      ho _ (Option.join_eq_some_iff.1 hchild) child rfl
    exact Shape.isSound_node (join h.left) (join h.right) (h.value value hvalue)

/-! ## Nodes -/

section
variable {route : Route}

/-- A value that is read as a sound shape, or as none. -/
def ReadsSound (route : Route) (j : Json) : Prop :=
  ∀ o, child route j = .ok o → ∀ s ∈ o, s.IsSound

theorem eq_ok_of_once {α : Type} {slot : Option α} {key : String} {read : Except Fault α} {a : α}
    (h : once slot key read = .ok a) : read = .ok a := by
  unfold once at h
  split at h
  · cases h
  · exact h

theorem isSound_of_members {ms : List (String × Json)} (children : ∀ m ∈ ms, ReadsSound route m.2)
    {s : Slots} (hs : s.IsSound) {shape : Shape} (h : members route s ms = .ok shape) :
    shape.IsSound := by
  induction ms generalizing s with
  | nil => exact hs.close h
  | cons m ms ih =>
    obtain ⟨hm, hms⟩ := List.forall_mem_cons.1 children
    obtain ⟨key, j⟩ := m
    unfold members at h
    split at h
    · obtain ⟨kind, -, h⟩ := exists_of_bind_eq_ok h
      refine ih hms ?_ h
      exact ⟨hs.left, hs.right, hs.value⟩
    split at h
    · obtain ⟨left, read, h⟩ := exists_of_bind_eq_ok h
      have sound := hm left (eq_ok_of_once read)
      refine ih hms ?_ h
      exact ⟨by simpa using sound, hs.right, hs.value⟩
    split at h
    · obtain ⟨right, read, h⟩ := exists_of_bind_eq_ok h
      have sound := hm right (eq_ok_of_once read)
      refine ih hms ?_ h
      exact ⟨hs.left, by simpa using sound, hs.value⟩
    split at h
    · obtain ⟨value, read, h⟩ := exists_of_bind_eq_ok h
      have finite := isFinite_of_nodeValue (eq_ok_of_once read)
      refine ih hms ?_ h
      exact ⟨hs.left, hs.right, by simpa using finite⟩
    · exact ih hms hs h

theorem isSound_of_closeItems {kind : NodeKind} {left right : Option Shape} {items : List Json}
    (hleft : ∀ s ∈ left, s.IsSound) (hright : ∀ s ∈ right, s.IsSound) {shape : Shape}
    (h : closeItems route kind left right items = .ok shape) : shape.IsSound := by
  unfold closeItems at h
  split at h
  · cases h
  · obtain ⟨value, read, h⟩ := exists_of_bind_eq_ok h
    split at h
    · cases h
      exact Shape.isSound_node hleft hright (isFinite_of_nodeValue read)
    · cases h

theorem isSound_of_leftItem {kind : NodeKind} {items : List Json}
    (children : ∀ j ∈ items, ReadsSound route j) {shape : Shape}
    (h : leftItem route kind items = .ok shape) : shape.IsSound := by
  unfold leftItem at h
  split at h
  · cases h
  · obtain ⟨hj, children⟩ := List.forall_mem_cons.1 children
    obtain ⟨left, readLeft, h⟩ := exists_of_bind_eq_ok h
    unfold rightItem at h
    split at h
    · cases h
    · obtain ⟨hj', -⟩ := List.forall_mem_cons.1 children
      obtain ⟨right, readRight, h⟩ := exists_of_bind_eq_ok h
      exact isSound_of_closeItems (hj left readLeft) (hj' right readRight) h

theorem readsSound_object {ms : List (String × Json)} (children : ∀ m ∈ ms, ReadsSound route m.2) :
    ReadsSound route (.object ms) := by
  intro o h
  unfold child at h
  obtain ⟨shape, hms, rfl⟩ := exists_of_map_eq_ok h
  intro s hs
  cases hs
  exact isSound_of_members children Slots.isSound_empty hms

theorem readsSound_array {items : List Json} (children : ∀ j ∈ items, ReadsSound route j) :
    ReadsSound route (.array items) := by
  intro o h
  cases items with
  | nil => cases h
  | cons j items =>
    obtain ⟨-, children⟩ := List.forall_mem_cons.1 children
    unfold child at h
    obtain ⟨kind, -, h⟩ := exists_of_bind_eq_ok h
    obtain ⟨shape, hitems, rfl⟩ := exists_of_map_eq_ok h
    intro s hs
    cases hs
    exact isSound_of_leftItem children hitems

theorem readsSound_null : ReadsSound route .null := by
  intro o h
  cases h
  exact nofun

theorem readsSound (j : Json) : ReadsSound route j := by
  induction j using Json.induction with
  | null => exact readsSound_null
  | bool _ => exact nofun
  | number _ => exact nofun
  | string _ => exact nofun
  | array items ih => exact readsSound_array ih
  | object ms ih => exact readsSound_object ih

/-- **Import.** A tree that is read from JSON is writable. -/
theorem isWritable_of_tree {j : Json} {t : Tree} (h : tree route j = .ok t) : t.IsWritable := by
  unfold tree shape at h
  obtain ⟨s, read, h⟩ := exists_of_bind_eq_ok h
  obtain ⟨o, hchild, read⟩ := exists_of_bind_eq_ok read
  cases o with
  | none => cases read
  | some s' =>
    cases read
    exact readsSound j _ hchild s rfl t (eq_ok_of_mapError h)

end

end Exchange

end RecordRules
