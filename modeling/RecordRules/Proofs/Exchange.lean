import RecordRules.Exchange.Reader
import RecordRules.Exchange.Writer
import RecordRules.Proofs.Writable

/-!
# Trees through JSON

A tree is written as a shape and the shape is read again on either route: a text shows the members
of an object in the order in which they are written, a value in the order of their keys. So the
round trip is a statement on shapes, and a literal that cannot be read stops it at its leaf.
-/

namespace RecordRules

namespace Exchange

/-- A written value as a route shows it. -/
def Route.view : Route → Json → Json
  | .text, j => j
  | .value, j => j.sorted

/-- The shape that a tree is written in. -/
def shapeOf : Tree → Shape
  | .operand c => .node .operand none none (.condition c)
  | .operator k left right =>
    .node .operator (some (shapeOf left)) (some (shapeOf right)) (.combinator k)

/-! ## Leaves -/

theorem nodeKind_name (route : Route) (k : NodeKind) : nodeKind route (.string k.name) = .ok k := by
  cases route <;> cases k <;> rfl

theorem literal?_toJson {l : Literal} (h : l.IsFinite) : literal? l.toJson = some l := by
  cases l with
  | integer n =>
    have range : Int64.minValue.toInt ≤ n.toInt ∧ n.toInt ≤ Int64.maxValue.toInt :=
      ⟨n.minValue_le_toInt, n.toInt_le⟩
    simp only [Literal.toJson, Json.Number.ofInt64, literal?, if_pos range, Int64.ofInt_toInt]
  | float x =>
    have : x.IsFinite := h
    simp [Literal.toJson, Json.Number.ofBinary64?, literal?, this]
  | string s => rfl

theorem literal?_toJson_eq_none {l : Literal} (h : ¬ l.IsFinite) : literal? l.toJson = none := by
  cases l with
  | float x =>
    have : ¬ x.IsFinite := h
    simp [Literal.toJson, Json.Number.ofBinary64?, literal?, this]
  | _ => exact absurd trivial h

theorem view_literal (route : Route) (l : Literal) : route.view l.toJson = l.toJson := by
  cases route with
  | text => rfl
  | value =>
    cases l with
    | float x =>
      simp only [Literal.toJson, Route.view]
      cases Json.Number.ofBinary64? x <;> rfl
    | _ => rfl

theorem conditionOf?_view (route : Route) (c : Condition) :
    conditionOf? (route.view c.toJson) =
      (literal? c.literal.toJson).map fun l => ⟨c.field, c.comparator, l⟩ := by
  have read : conditionOf? (route.view c.toJson) =
      condition? (.string c.field) (.string c.comparator.name) (route.view c.literal.toJson) := by
    cases route <;> rfl
  rw [read, view_literal]
  cases h : literal? c.literal.toJson <;> simp [condition?, tag?, Comparator.ofName?_name, h]

theorem nodeValue_view {c : Condition} (h : c.literal.IsFinite) (route : Route) :
    nodeValue (route.view c.toJson) = .ok (.condition c) := by
  simp [nodeValue, conditionOf?_view, literal?_toJson h]

theorem nodeValue_view_error {c : Condition} (h : ¬ c.literal.IsFinite) (route : Route) :
    nodeValue (route.view c.toJson) = .error .notAValue := by
  have untagged : tag? (route.view c.toJson) = none := by cases route <;> rfl
  simp [nodeValue, conditionOf?_view, literal?_toJson_eq_none h, untagged]

theorem nodeValue_keyword (k : Combinator) :
    nodeValue (.string k.keyword) = .ok (.combinator k) := by
  cases k <;> rfl

/-! ## Nodes -/

section
variable (route : Route) (s : Slots) (j : Json) (rest : List (String × Json))

theorem members_kind : members route s (("node_type", j) :: rest) = (do
    let kind ← once s.kind "node_type" (nodeKind route j)
    members route { s with kind := some kind } rest) := by
  rw [members, if_pos rfl]

theorem members_left : members route s (("left", j) :: rest) = (do
    let left ← once s.left "left" (child route j)
    members route { s with left := some left } rest) := by
  rw [members, if_neg (by decide), if_pos rfl]

theorem members_right : members route s (("right", j) :: rest) = (do
    let right ← once s.right "right" (child route j)
    members route { s with right := some right } rest) := by
  rw [members, if_neg (by decide), if_neg (by decide), if_pos rfl]

theorem members_value : members route s (("value", j) :: rest) = (do
    let value ← once s.value "value" (nodeValue j)
    members route { s with value := some value } rest) := by
  rw [members, if_neg (by decide), if_neg (by decide), if_neg (by decide), if_pos rfl]

end

/-- A written node is read child by child, whatever the order of its members. -/
theorem child_view (route : Route) (kind : NodeKind) (left right value : Json) :
    child route (route.view (.object [("node_type", .string kind.name), ("left", left),
      ("right", right), ("value", value)])) = (do
        let l ← child route (route.view left)
        let r ← child route (route.view right)
        let v ← nodeValue (route.view value)
        return some (.node kind l r v)) := by
  cases route with
  | text =>
    rw [Route.view, child, members_kind, nodeKind_name]
    simp only [Route.view, once, members_left, members_right, members_value]
    cases child .text left <;> cases child .text right <;> cases nodeValue value <;> rfl
  | value =>
    have sorted : Route.value.view (.object [("node_type", .string kind.name), ("left", left),
        ("right", right), ("value", value)]) = .object [("left", left.sorted),
          ("node_type", .string kind.name), ("right", right.sorted), ("value", value.sorted)] := rfl
    rw [sorted, child, members_left]
    simp only [Route.view, once, members_kind, nodeKind_name, members_right, members_value]
    cases child .value left.sorted <;> cases child .value right.sorted <;>
      cases nodeValue value.sorted <;> rfl

theorem child_null (route : Route) : child route (route.view .null) = .ok none := by
  cases route <;> simp [Route.view, Json.sorted, child]

theorem child_toJson {t : Tree} (h : ∀ c ∈ t.conditions, c.literal.IsFinite) (route : Route) :
    child route (route.view t.toJson) = .ok (some (shapeOf t)) := by
  induction t with
  | operand c =>
    rw [Tree.toJson, child_view, child_null, nodeValue_view (h c (List.mem_singleton.2 rfl))]
    rfl
  | operator k left right ihl ihr =>
    obtain ⟨hl, hr⟩ := Tree.forall_conditions_operator.1 h
    have value : nodeValue (route.view (.string k.keyword)) = .ok (.combinator k) := by
      cases route <;> exact nodeValue_keyword k
    rw [Tree.toJson, child_view, ihl hl, ihr hr, value]
    rfl

theorem exists_child_toJson_error {t : Tree} (h : ¬ ∀ c ∈ t.conditions, c.literal.IsFinite)
    (route : Route) : ∃ fault, child route (route.view t.toJson) = .error fault := by
  induction t with
  | operand c =>
    have hc : ¬ c.literal.IsFinite := by simpa [Tree.conditions] using h
    rw [Tree.toJson, child_view, child_null, nodeValue_view_error hc]
    exact ⟨.notAValue, rfl⟩
  | operator k left right ihl ihr =>
    rw [Tree.toJson, child_view]
    rcases Tree.not_forall_conditions_operator h with hl | ⟨hl, hr⟩
    · obtain ⟨fault, hfault⟩ := ihl hl
      rw [hfault]
      exact ⟨fault, rfl⟩
    · obtain ⟨fault, hfault⟩ := ihr hr
      rw [child_toJson hl, hfault]
      exact ⟨fault, rfl⟩

/-! ## Trees -/

theorem toTree_shapeOf {t : Tree} (h : ∀ c ∈ t.conditions, c.literal.mixesQuotes = false) :
    (shapeOf t).toTree = .ok t := by
  induction t with
  | operand c =>
    have hc := h c (List.mem_singleton.2 rfl)
    simp [shapeOf, Shape.toTree, hc]
  | operator k left right ihl ihr =>
    obtain ⟨hl, hr⟩ := Tree.forall_conditions_operator.1 h
    rw [shapeOf, Shape.toTree, ihl hl, ihr hr]
    rfl

theorem exists_toTree_shapeOf_error {t : Tree}
    (h : ¬ ∀ c ∈ t.conditions, c.literal.mixesQuotes = false) :
    ∃ fault, (shapeOf t).toTree = .error fault := by
  induction t with
  | operand c =>
    have hc : c.literal.mixesQuotes = true := by simpa [Tree.conditions] using h
    exact ⟨.mixedQuotes c.field, by simp [shapeOf, Shape.toTree, hc]⟩
  | operator k left right ihl ihr =>
    rw [shapeOf, Shape.toTree]
    rcases Tree.not_forall_conditions_operator h with hl | ⟨hl, hr⟩
    · obtain ⟨fault, hfault⟩ := ihl hl
      rw [hfault]
      exact ⟨fault, rfl⟩
    · obtain ⟨fault, hfault⟩ := ihr hr
      rw [toTree_shapeOf hl, hfault]
      exact ⟨fault, rfl⟩

theorem tree_toJson {t : Tree} (h : t.IsWritable) (route : Route) :
    tree route (route.view t.toJson) = .ok t := by
  obtain ⟨finite, quotes⟩ := Tree.isWritable_iff.1 h
  rw [tree, shape, child_toJson finite route]
  change (shapeOf t).toTree.mapError Fault.tree = .ok t
  rw [toTree_shapeOf quotes]
  rfl

theorem exists_tree_toJson_error {t : Tree} (h : ¬ t.IsWritable) (route : Route) :
    ∃ fault, tree route (route.view t.toJson) = .error fault := by
  rw [tree, shape]
  by_cases hfinite : ∀ c ∈ t.conditions, c.literal.IsFinite
  · have hquotes : ¬ ∀ c ∈ t.conditions, c.literal.mixesQuotes = false := fun hquotes =>
      h (Tree.isWritable_iff.2 ⟨hfinite, hquotes⟩)
    obtain ⟨fault, hfault⟩ := exists_toTree_shapeOf_error hquotes
    rw [child_toJson hfinite]
    refine ⟨.tree fault, ?_⟩
    change (shapeOf t).toTree.mapError Fault.tree = .error (.tree fault)
    rw [hfault]
    rfl
  · obtain ⟨fault, hfault⟩ := exists_child_toJson_error hfinite route
    rw [hfault]
    exact ⟨fault, rfl⟩

/-- **Round trip.** A tree is read back from its JSON value if its literals are writable, and a tree
with any other literal is refused. -/
theorem treeOfValue_toJson (t : Tree) :
    (t.IsWritable → treeOfValue t.toJson = .ok t ∧ t.sameTree t) ∧
    (¬ t.IsWritable → ∃ fault, treeOfValue t.toJson = .error fault) :=
  ⟨fun h => ⟨tree_toJson h .value, Tree.sameTree_self h⟩, fun h => exists_tree_toJson_error h .value⟩

end Exchange

end RecordRules
