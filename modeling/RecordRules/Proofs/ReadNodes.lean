import RecordRules.Proofs.Exchange
import RecordRules.Proofs.ImportedTree
import RecordRules.Proofs.MembersByKey

/-!
# Which nodes are read

When a node is read on a route, said without the order of its members: each key of a node has one
value or none, and each value is read by itself. All else in an object is skipped.
-/

namespace RecordRules.Exchange

open Json (valuesOf)

/-! ## The kind of a node -/

theorem kindOfName_eq_ok_iff {name : String} {k : NodeKind} :
    kindOfName name = .ok k ↔ NodeKind.ofName? name = some k := by
  unfold kindOfName
  cases NodeKind.ofName? name <;> simp

theorem kindOfMember_eq_ok_iff {key : String} {j : Json} {k : NodeKind} :
    kindOfMember key j = .ok k ↔ j = .null ∧ NodeKind.ofName? key = some k := by
  rw [kindOfMember, bind_eq_ok_iff]
  simp only [kindOfName_eq_ok_iff]
  cases j <;> simp

theorem tag?_eq_some_iff {j : Json} {s : String} :
    tag? j = some s ↔ j = .string s ∨ j = .object [(s, .null)] := by
  constructor
  · intro h
    unfold tag? at h
    split at h
    · cases h
      exact .inl rfl
    · cases h
      exact .inr rfl
    · cases h
  · rintro (rfl | rfl) <;> rfl

/-- The routes take the same kinds, and differ in their faults. -/
theorem nodeKind_eq_ok_iff {route : Route} {j : Json} {k : NodeKind} :
    nodeKind route j = .ok k ↔ (tag? j).bind NodeKind.ofName? = some k := by
  cases j with
  | string s => cases route <;> exact kindOfName_eq_ok_iff
  | object ms =>
    simp only [Option.bind_eq_some_iff, tag?_eq_some_iff]
    rcases ms with _ | ⟨⟨key, j⟩, _ | ⟨m, ms⟩⟩
    · cases route <;> simp [nodeKind]
    · cases route <;> simp [nodeKind, kindOfMember_eq_ok_iff]
    · cases route <;> simp [nodeKind, bind_eq_ok_iff]
  | _ => cases route <;> simp [nodeKind, tag?]

/-! ## What a node carries -/

theorem condition?_eq_some_iff {field comparator literal : Json} {c : Condition} :
    condition? field comparator literal = some c ↔ field = .string c.field ∧
      (tag? comparator).bind Comparator.ofName? = some c.comparator ∧
      literal? literal = some c.literal := by
  obtain ⟨name, comparator', literal'⟩ := c
  unfold condition?
  split
  · simp only [Option.bind_eq_bind, Option.bind_eq_some_iff, pure, Option.some.injEq,
      Condition.mk.injEq, Json.string.injEq]
    constructor
    · rintro ⟨k, hk, l, hl, rfl, rfl, rfl⟩
      exact ⟨rfl, hk, hl⟩
    · rintro ⟨rfl, hk, hl⟩
      exact ⟨_, hk, _, hl, rfl, rfl, rfl⟩
  · rename_i other
    simpa using fun h => absurd h (other name)

theorem only?_eq_some_iff {key : String} {ms : List (String × Json)} {j : Json} :
    only? key ms = some j ↔ valuesOf key ms = [j] := by
  unfold only? valuesOf
  generalize ms.filter (fun m => m.1 == key) = found
  rcases found with _ | ⟨⟨k, i⟩, _ | ⟨m, rest⟩⟩ <;> simp

theorem conditionOf?_object_eq_some_iff {ms : List (String × Json)} {c : Condition} :
    conditionOf? (.object ms) = some c ↔ ∃ field comparator literal,
      valuesOf "field" ms = [field] ∧ valuesOf "comparator" ms = [comparator] ∧
      valuesOf "literal" ms = [literal] ∧ condition? field comparator literal = some c := by
  simp only [conditionOf?, Option.bind_eq_bind, Option.bind_eq_some_iff, only?_eq_some_iff]
  grind

theorem conditionOf?_array_eq_some_iff {items : List Json} {c : Condition} :
    conditionOf? (.array items) = some c ↔ ∃ field comparator literal,
      items = [field, comparator, literal] ∧ condition? field comparator literal = some c := by
  rcases items with _ | ⟨f, _ | ⟨k, _ | ⟨l, _ | ⟨j, rest⟩⟩⟩⟩ <;> simp [conditionOf?]

/-- A word is no condition. -/
theorem conditionOf?_eq_none_of_tag? {j : Json} {s : String} (h : tag? j = some s) :
    conditionOf? j = none := by
  rcases tag?_eq_some_iff.1 h with rfl | rfl
  · rfl
  · apply Option.eq_none_iff_forall_ne_some.2
    intro c hc
    obtain ⟨field, comparator, -, hfield, hcomparator, -⟩ := conditionOf?_object_eq_some_iff.1 hc
    have hfield := List.mem_singleton.1 (Json.mem_of_valuesOf_eq_singleton hfield)
    have hcomparator := List.mem_singleton.1 (Json.mem_of_valuesOf_eq_singleton hcomparator)
    obtain ⟨hs, -⟩ := Prod.mk.inj hfield
    obtain ⟨hs', -⟩ := Prod.mk.inj hcomparator
    exact absurd (hs.trans hs'.symm) (by decide)

theorem nodeValue_eq_condition_iff {j : Json} {c : Condition} :
    nodeValue j = .ok (.condition c) ↔ conditionOf? j = some c := by
  unfold nodeValue
  cases conditionOf? j with
  | some c' => simp
  | none => cases (tag? j).bind Combinator.ofKeyword? <;> simp

theorem nodeValue_eq_combinator_iff {j : Json} {k : Combinator} :
    nodeValue j = .ok (.combinator k) ↔ (tag? j).bind Combinator.ofKeyword? = some k := by
  unfold nodeValue
  cases hc : conditionOf? j with
  | none => cases (tag? j).bind Combinator.ofKeyword? <;> simp
  | some c =>
    cases ht : tag? j with
    | none => simp
    | some s =>
      rw [conditionOf?_eq_none_of_tag? ht] at hc
      cases hc

/-! ## Members -/

/-- How the values of one key fill its slot: none of them leaves it, and one that is read fills it if
nothing did before. -/
inductive Fills {α : Type} (read : Json → Except Fault α) : Option α → List Json → Option α → Prop
  | nothing (slot : Option α) : Fills read slot [] slot
  | first {j : Json} {a : α} (h : read j = .ok a) : Fills read none [j] (some a)

theorem fills_nil_iff {α : Type} {read : Json → Except Fault α} {slot slot' : Option α} :
    Fills read slot [] slot' ↔ slot' = slot := by
  constructor
  · rintro ⟨⟩
    rfl
  · rintro rfl
    exact .nothing slot'

theorem fills_cons_iff {α : Type} {read : Json → Except Fault α} {slot slot' : Option α}
    (key : String) {j : Json} {js : List Json} : Fills read slot (j :: js) slot' ↔
      ∃ a, once slot key (read j) = .ok a ∧ Fills read (some a) js slot' := by
  constructor
  · rintro (_ | h)
    exact ⟨_, h, .nothing _⟩
  · rintro ⟨a, h, hrest⟩
    cases slot with
    | some b => cases h
    | none =>
      cases hrest
      exact .first h

/-- How members fill the slots of a node, whatever their order. -/
@[mk_iff]
structure Slots.FilledBy (route : Route) (ms : List (String × Json)) (s s' : Slots) : Prop where
  kind : Fills (nodeKind route) s.kind (valuesOf "node_type" ms) s'.kind
  left : Fills (child route) s.left (valuesOf "left" ms) s'.left
  right : Fills (child route) s.right (valuesOf "right" ms) s'.right
  value : Fills nodeValue s.value (valuesOf "value" ms) s'.value

section
variable {route : Route} {s s' : Slots} {j : Json} {ms : List (String × Json)}

theorem Slots.filledBy_nil_iff : FilledBy route [] s s' ↔ s' = s := by
  cases s
  cases s'
  rw [filledBy_iff, Slots.mk.injEq]
  exact and_congr fills_nil_iff <| and_congr fills_nil_iff <| and_congr fills_nil_iff fills_nil_iff

theorem Slots.filledBy_kind_iff : FilledBy route (("node_type", j) :: ms) s s' ↔
    ∃ kind, once s.kind "node_type" (nodeKind route j) = .ok kind ∧
      FilledBy route ms { s with kind := some kind } s' := by
  simp only [filledBy_iff, Json.valuesOf_cons, String.reduceEq, if_true, if_false,
    fills_cons_iff "node_type"]
  grind

theorem Slots.filledBy_left_iff : FilledBy route (("left", j) :: ms) s s' ↔
    ∃ left, once s.left "left" (child route j) = .ok left ∧
      FilledBy route ms { s with left := some left } s' := by
  simp only [filledBy_iff, Json.valuesOf_cons, String.reduceEq, if_true, if_false,
    fills_cons_iff "left"]
  grind

theorem Slots.filledBy_right_iff : FilledBy route (("right", j) :: ms) s s' ↔
    ∃ right, once s.right "right" (child route j) = .ok right ∧
      FilledBy route ms { s with right := some right } s' := by
  simp only [filledBy_iff, Json.valuesOf_cons, String.reduceEq, if_true, if_false,
    fills_cons_iff "right"]
  grind

theorem Slots.filledBy_value_iff : FilledBy route (("value", j) :: ms) s s' ↔
    ∃ value, once s.value "value" (nodeValue j) = .ok value ∧
      FilledBy route ms { s with value := some value } s' := by
  simp only [filledBy_iff, Json.valuesOf_cons, String.reduceEq, if_true, if_false,
    fills_cons_iff "value"]
  grind

theorem mem_nodeKeys_iff {key : String} :
    key ∈ nodeKeys ↔ key = "node_type" ∨ key = "left" ∨ key = "right" ∨ key = "value" := by
  simp [nodeKeys]

theorem Slots.filledBy_skip_iff {key : String} (h : key ∉ nodeKeys) :
    FilledBy route ((key, j) :: ms) s s' ↔ FilledBy route ms s s' := by
  simp only [mem_nodeKeys_iff, not_or] at h
  obtain ⟨kind, left, right, value⟩ := h
  simp only [filledBy_iff, Json.valuesOf_cons, kind, left, right, value, if_false]

theorem members_skip {key : String} (h : key ∉ nodeKeys) :
    members route s ((key, j) :: ms) = members route s ms := by
  simp only [mem_nodeKeys_iff, not_or] at h
  obtain ⟨kind, left, right, value⟩ := h
  rw [members, if_neg kind, if_neg left, if_neg right, if_neg value]

/-- A node is read if its members fill the slots that it needs. -/
theorem members_eq_ok_iff {shape : Shape} : members route s ms = .ok shape ↔
    ∃ s', s.FilledBy route ms s' ∧ s'.close = .ok shape := by
  induction ms generalizing s with
  | nil =>
    rw [members]
    simp only [Slots.filledBy_nil_iff, exists_eq_left]
  | cons m ms ih =>
    obtain ⟨key, j⟩ := m
    by_cases known : key ∈ nodeKeys
    · rcases mem_nodeKeys_iff.1 known with rfl | rfl | rfl | rfl
      · simp only [members_kind, bind_eq_ok_iff, ih, Slots.filledBy_kind_iff]
        grind
      · simp only [members_left, bind_eq_ok_iff, ih, Slots.filledBy_left_iff]
        grind
      · simp only [members_right, bind_eq_ok_iff, ih, Slots.filledBy_right_iff]
        grind
      · simp only [members_value, bind_eq_ok_iff, ih, Slots.filledBy_value_iff]
        grind
    · rw [members_skip known, ih]
      simp only [Slots.filledBy_skip_iff known]

/-! ## Nodes and trees -/

theorem child_object_eq_ok_iff {o : Option Shape} : child route (.object ms) = .ok o ↔
    ∃ s shape, Slots.FilledBy route ms {} s ∧ s.close = .ok shape ∧ some shape = o := by
  simp only [child, map_eq_ok_iff, members_eq_ok_iff]
  grind

theorem closeItems_eq_ok_iff {kind : NodeKind} {left right : Option Shape} {items : List Json}
    {shape : Shape} : closeItems route kind left right items = .ok shape ↔
      ∃ j value, items = [j] ∧ nodeValue j = .ok value ∧ .node kind left right value = shape := by
  rcases items with _ | ⟨j, _ | ⟨j', rest⟩⟩
  · simp [closeItems]
  · simp [closeItems, map_eq_ok_iff]
  · simp [closeItems, bind_eq_ok_iff]

/-- A node that is written as an array has all of its four items. -/
theorem child_array_eq_ok_iff {items : List Json} {o : Option Shape} :
    child route (.array items) = .ok o ↔ ∃ k l r v kind left right value,
      items = [k, l, r, v] ∧ nodeKind route k = .ok kind ∧ child route l = .ok left ∧
      child route r = .ok right ∧ nodeValue v = .ok value ∧
      some (.node kind left right value) = o := by
  rcases items with _ | ⟨k, _ | ⟨l, _ | ⟨r, rest⟩⟩⟩
  · simp [child]
  · simp [child, bind_eq_ok_iff, leftItem]
  · simp [child, bind_eq_ok_iff, leftItem, rightItem]
  · simp only [child, bind_eq_ok_iff, map_eq_ok_iff, leftItem, rightItem, closeItems_eq_ok_iff,
      List.cons.injEq]
    grind

theorem eq_null_of_child (h : child route j = .ok none) : j = .null := by
  cases j with
  | null => rfl
  | array items =>
    obtain ⟨-, -, -, -, kind, left, right, value, -, -, -, -, -, h⟩ := child_array_eq_ok_iff.1 h
    cases h
  | object ms =>
    obtain ⟨-, shape, -, -, h⟩ := child_object_eq_ok_iff.1 h
    cases h
  | _ => cases h

theorem tree_eq_ok_iff {t : Tree} : tree route j = .ok t ↔
    ∃ shape, child route j = .ok (some shape) ∧ shape.toTree = .ok t := by
  simp only [tree, shape, bind_eq_ok_iff]
  constructor
  · rintro ⟨s, ⟨o, hchild, hs⟩, ht⟩
    cases o with
    | none => cases hs
    | some s' =>
      cases hs
      exact ⟨s, hchild, eq_ok_of_mapError ht⟩
  · rintro ⟨s, hchild, ht⟩
    refine ⟨s, ⟨some s, hchild, rfl⟩, ?_⟩
    rw [ht]
    rfl

end

end RecordRules.Exchange
