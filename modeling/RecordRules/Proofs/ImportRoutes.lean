import RecordRules.Error
import RecordRules.Proofs.ReadNodes
import RecordRules.Proofs.Splitting

/-!
# Trees from text and from values

The same JSON comes in as a text or as a value, which is its normal form. A reader of text meets
the members in the order in which they are written and refuses a key that it meets twice; a value
has lost the order, and all but the last member of a key. So whatever a text gives its value gives
too, and the value gives no more where no key is repeated.
-/

namespace RecordRules.Exchange

open Json (Document inOrder sortedMembers valuesOf)
open Token (eq_ok_of_toOption)

/-! ## What a reader of text skips -/

theorem itemsToJson?_cons_eq_some_iff {d : Document} {rest : List Document} {js : List Json} :
    Document.itemsToJson? (d :: rest) = some js ↔
      ∃ j js', d.toJson? = some j ∧ Document.itemsToJson? rest = some js' ∧ j :: js' = js := by
  simp [Document.itemsToJson?, Option.bind_eq_some_iff]

theorem membersToJson?_cons_eq_some_iff {key : Option String} {d : Document}
    {rest : List (Option String × Document)} {ms : List (String × Json)} :
    Document.membersToJson? ((key, d) :: rest) = some ms ↔ ∃ k j ms', key = some k ∧
      d.toJson? = some j ∧ Document.membersToJson? rest = some ms' ∧ (k, j) :: ms' = ms := by
  simp [Document.membersToJson?, Option.bind_eq_some_iff]

mutual

/-- What is looked at of a document is read as the node that all of it is. -/
theorem exists_toJson?_lookedAt : ∀ (d : Document) {j : Json}, d.toJson? = some j →
    ∃ j', (lookedAt d).toJson? = some j' ∧ child .text j' = child .text j
  | .null, j, h | .bool _, j, h | .number _, j, h | .string _, j, h | .array [], j, h =>
    ⟨j, h, rfl⟩
  | .array (kind :: rest), j, h => by
    obtain ⟨js, hjs, rfl⟩ := Option.map_eq_some_iff.1 h
    obtain ⟨k, items, hkind, hitems, rfl⟩ := itemsToJson?_cons_eq_some_iff.1 hjs
    obtain ⟨items', hitems', same⟩ := exists_itemsToJson?_lookedAt rest hitems
    have kept := itemsToJson?_cons_eq_some_iff.2 ⟨k, items', hkind, hitems', rfl⟩
    refine ⟨.array (k :: items'), ?_, ?_⟩
    · rw [lookedAt, Document.toJson?, kept]
      rfl
    · simp only [child, same]
  | .object members, j, h => by
    obtain ⟨ms, hms, rfl⟩ := Option.map_eq_some_iff.1 h
    obtain ⟨ms', hms', same⟩ := exists_membersToJson?_lookedAt members hms
    refine ⟨.object ms', ?_, ?_⟩
    · rw [lookedAt, Document.toJson?, hms']
      rfl
    · simp only [child, same]

theorem exists_membersToJson?_lookedAt : ∀ (members : List (Option String × Document))
    {ms : List (String × Json)}, Document.membersToJson? members = some ms →
    ∃ ms', Document.membersToJson? (lookedAtMembers members) = some ms' ∧
      ∀ s, Exchange.members .text s ms' = Exchange.members .text s ms
  | [], ms, h => ⟨ms, h, fun _ => rfl⟩
  | (key, d) :: rest, ms, h => by
    obtain ⟨key, j, ms, rfl, hd, hrest, rfl⟩ := membersToJson?_cons_eq_some_iff.1 h
    obtain ⟨ms', hms', same⟩ := exists_membersToJson?_lookedAt rest hrest
    rw [lookedAtMembers]
    -- A child skips members of its own, any other member of a node is kept as it is.
    split
    · obtain ⟨j', hj', sameChild⟩ := exists_toJson?_lookedAt d hd
      have kept := membersToJson?_cons_eq_some_iff.2 ⟨key, j', ms', rfl, hj', hms', rfl⟩
      refine ⟨(key, j') :: ms', kept, fun s => ?_⟩
      have side : key = "left" ∨ key = "right" := by simpa using ‹key ∈ ["left", "right"]›
      rcases side with rfl | rfl
      · simp only [members_left, sameChild, same]
      · simp only [members_right, sameChild, same]
    split
    · have kept := membersToJson?_cons_eq_some_iff.2 ⟨key, j, ms', rfl, hd, hms', rfl⟩
      refine ⟨(key, j) :: ms', kept, fun s => ?_⟩
      unfold Exchange.members
      simp only [same]
    · refine ⟨ms', hms', fun s => ?_⟩
      rw [members_skip ‹key ∉ nodeKeys›, same]

theorem exists_itemsToJson?_lookedAt : ∀ (items : List Document) {js : List Json},
    Document.itemsToJson? items = some js →
    ∃ js', Document.itemsToJson? (lookedAtItems items) = some js' ∧
      ∀ kind, leftItem .text kind js' = leftItem .text kind js
  | [], js, h => ⟨js, h, fun _ => rfl⟩
  | [left], js, h => by
    obtain ⟨j, js, hleft, hrest, rfl⟩ := itemsToJson?_cons_eq_some_iff.1 h
    obtain ⟨j', hj', sameLeft⟩ := exists_toJson?_lookedAt left hleft
    have kept := itemsToJson?_cons_eq_some_iff.2 ⟨j', js, hj', hrest, rfl⟩
    refine ⟨j' :: js, kept, fun kind => ?_⟩
    simp only [leftItem, sameLeft]
  | left :: right :: rest, js, h => by
    obtain ⟨l, js, hleft, hjs, rfl⟩ := itemsToJson?_cons_eq_some_iff.1 h
    obtain ⟨r, js, hright, hrest, rfl⟩ := itemsToJson?_cons_eq_some_iff.1 hjs
    obtain ⟨l', hl', sameLeft⟩ := exists_toJson?_lookedAt left hleft
    obtain ⟨r', hr', sameRight⟩ := exists_toJson?_lookedAt right hright
    have kept := itemsToJson?_cons_eq_some_iff.2 ⟨r', js, hr', hrest, rfl⟩
    have kept := itemsToJson?_cons_eq_some_iff.2 ⟨l', r' :: js, hl', kept, rfl⟩
    refine ⟨l' :: r' :: js, kept, fun kind => ?_⟩
    simp only [leftItem, rightItem, sameLeft, sameRight]

end

theorem tree_congr {route : Route} {j j' : Json} (h : child route j' = child route j) :
    tree route j' = tree route j := by
  cases hj : child route j with
  | error fault => simp only [tree, shape, h, hj]; rfl
  | ok o =>
    cases o with
    | none => rw [eq_null_of_child hj, eq_null_of_child (h.trans hj)]
    | some s => simp only [tree, shape, h, hj]; rfl

/-- A text that can be read as a whole is read as its value in the order of the text. -/
theorem treeOfText_eq {text : String} {j : Json} (h : Json.ofText? text = some j) :
    treeOfText text = tree .text j := by
  obtain ⟨d, hd, hj⟩ := Option.bind_eq_some_iff.1 h
  obtain ⟨j', hj', same⟩ := exists_toJson?_lookedAt d hj
  simp only [treeOfText, readText, hd, hj', hj, tree_congr same, Option.isSome_some, if_true]
  cases tree .text j <;> rfl

/-! ## What a node carries -/

theorem sorted_of_tag? {j : Json} {s : String} (h : tag? j = some s) : j.sorted = j := by
  rcases tag?_eq_some_iff.1 h with rfl | rfl <;> rfl

theorem tag?_sorted {j : Json} {s : String} (h : tag? j = some s) : tag? j.sorted = some s := by
  rwa [sorted_of_tag? h]

theorem tag?_of_sorted {j : Json} (unique : j.hasUniqueKeys) {s : String}
    (h : tag? j.sorted = some s) : tag? j = some s := by
  -- An object that repeats its one key is a word as a value and none as a text.
  rcases tag?_eq_some_iff.1 h with hj | hj
  · exact tag?_eq_some_iff.2 (.inl (Json.sorted_eq_string_iff.1 hj))
  · obtain ⟨ms, rfl, hms⟩ := Json.sorted_eq_object_iff.1 hj
    obtain ⟨i, rfl, hi⟩ := Json.exists_of_inOrder_eq_singleton unique hms
    obtain rfl := Json.sorted_eq_null_iff.1 hi
    rfl

theorem literal?_sorted (j : Json) : literal? j.sorted = literal? j := by
  cases j <;> simp [Json.sorted, literal?]

theorem condition?_sorted {field comparator literal : Json} {c : Condition}
    (h : condition? field comparator literal = some c) :
    condition? field.sorted comparator.sorted literal.sorted = some c := by
  obtain ⟨rfl, hcomparator, hliteral⟩ := condition?_eq_some_iff.1 h
  obtain ⟨s, hs, hk⟩ := Option.bind_eq_some_iff.1 hcomparator
  refine condition?_eq_some_iff.2 ⟨rfl, ?_, (literal?_sorted literal).trans hliteral⟩
  exact Option.bind_eq_some_iff.2 ⟨s, tag?_sorted hs, hk⟩

theorem condition?_of_sorted {field comparator literal : Json} (unique : comparator.hasUniqueKeys)
    {c : Condition} (h : condition? field.sorted comparator.sorted literal.sorted = some c) :
    condition? field comparator literal = some c := by
  obtain ⟨hfield, hcomparator, hliteral⟩ := condition?_eq_some_iff.1 h
  obtain ⟨s, hs, hk⟩ := Option.bind_eq_some_iff.1 hcomparator
  refine condition?_eq_some_iff.2 ⟨Json.sorted_eq_string_iff.1 hfield, ?_, ?_⟩
  · exact Option.bind_eq_some_iff.2 ⟨s, tag?_of_sorted unique hs, hk⟩
  · rwa [← literal?_sorted literal]

theorem conditionOf?_sorted {j : Json} {c : Condition} (h : conditionOf? j = some c) :
    conditionOf? j.sorted = some c := by
  cases j with
  | object ms =>
    obtain ⟨field, comparator, literal, hfield, hcomparator, hliteral, hc⟩ :=
      conditionOf?_object_eq_some_iff.1 h
    rw [Json.sorted_object]
    exact conditionOf?_object_eq_some_iff.2 ⟨field.sorted, comparator.sorted, literal.sorted,
      Json.valuesOf_normal_of_eq_singleton hfield, Json.valuesOf_normal_of_eq_singleton hcomparator,
      Json.valuesOf_normal_of_eq_singleton hliteral, condition?_sorted hc⟩
  | array items =>
    obtain ⟨field, comparator, literal, rfl, hc⟩ := conditionOf?_array_eq_some_iff.1 h
    rw [Json.sorted_array]
    exact condition?_sorted hc
  | _ => cases h

theorem conditionOf?_of_sorted {j : Json} (unique : j.hasUniqueKeys) {c : Condition}
    (h : conditionOf? j.sorted = some c) : conditionOf? j = some c := by
  cases j with
  | object ms =>
    rw [Json.sorted_object] at h
    obtain ⟨field, comparator, literal, hfield, hcomparator, hliteral, hc⟩ :=
      conditionOf?_object_eq_some_iff.1 h
    obtain ⟨f, hf, rfl⟩ := Json.exists_of_valuesOf_normal unique hfield
    obtain ⟨k, hk, rfl⟩ := Json.exists_of_valuesOf_normal unique hcomparator
    obtain ⟨l, hl, rfl⟩ := Json.exists_of_valuesOf_normal unique hliteral
    have member := Json.mem_of_valuesOf_eq_singleton hk
    have uniqueComparator := Json.hasUniqueKeys_member unique _ member
    exact conditionOf?_object_eq_some_iff.2 ⟨f, k, l, hf, hk, hl,
      condition?_of_sorted uniqueComparator hc⟩
  | array items =>
    rw [Json.sorted_array] at h
    obtain ⟨field, comparator, literal, hitems, hc⟩ := conditionOf?_array_eq_some_iff.1 h
    obtain ⟨f, items₁, rfl, rfl, h₁⟩ := List.map_eq_cons_iff.1 hitems
    obtain ⟨k, items₂, rfl, rfl, h₂⟩ := List.map_eq_cons_iff.1 h₁
    obtain ⟨l, items₃, rfl, rfl, h₃⟩ := List.map_eq_cons_iff.1 h₂
    obtain rfl := List.map_eq_nil_iff.1 h₃
    have uniqueComparator := Json.hasUniqueKeys_item unique k (by simp)
    exact condition?_of_sorted uniqueComparator hc
  | _ => cases h

theorem nodeValue_sorted {j : Json} {v : NodeValue} (h : nodeValue j = .ok v) :
    nodeValue j.sorted = .ok v := by
  cases v with
  | condition c =>
    exact nodeValue_eq_condition_iff.2 (conditionOf?_sorted (nodeValue_eq_condition_iff.1 h))
  | combinator k =>
    obtain ⟨s, hs, -⟩ := Option.bind_eq_some_iff.1 (nodeValue_eq_combinator_iff.1 h)
    rwa [sorted_of_tag? hs]

theorem nodeValue_of_sorted {j : Json} (unique : j.hasUniqueKeys) {v : NodeValue}
    (h : nodeValue j.sorted = .ok v) : nodeValue j = .ok v := by
  cases v with
  | condition c =>
    have condition := nodeValue_eq_condition_iff.1 h
    exact nodeValue_eq_condition_iff.2 (conditionOf?_of_sorted unique condition)
  | combinator k =>
    obtain ⟨s, hs, -⟩ := Option.bind_eq_some_iff.1 (nodeValue_eq_combinator_iff.1 h)
    rwa [sorted_of_tag? (tag?_of_sorted unique hs)] at h

theorem nodeKind_sorted {j : Json} {k : NodeKind} (h : nodeKind .text j = .ok k) :
    nodeKind .value j.sorted = .ok k := by
  obtain ⟨s, hs, hk⟩ := Option.bind_eq_some_iff.1 (nodeKind_eq_ok_iff.1 h)
  exact nodeKind_eq_ok_iff.2 (Option.bind_eq_some_iff.2 ⟨s, tag?_sorted hs, hk⟩)

theorem nodeKind_of_sorted {j : Json} (unique : j.hasUniqueKeys) {k : NodeKind}
    (h : nodeKind .value j.sorted = .ok k) : nodeKind .text j = .ok k := by
  obtain ⟨s, hs, hk⟩ := Option.bind_eq_some_iff.1 (nodeKind_eq_ok_iff.1 h)
  exact nodeKind_eq_ok_iff.2 (Option.bind_eq_some_iff.2 ⟨s, tag?_of_sorted unique hs, hk⟩)

/-! ## Nodes -/

section
variable {α : Type} {read read' : Json → Except Fault α} {ms : List (String × Json)}
  {key : String} {o : Option α}

theorem Fills.sorted (agree : ∀ m ∈ ms, ∀ a, read m.2 = .ok a → read' m.2.sorted = .ok a)
    (h : Fills read none (valuesOf key ms) o) :
    Fills read' none (valuesOf key (inOrder (sortedMembers ms))) o := by
  generalize hjs : valuesOf key ms = js at h
  cases h with
  | nothing =>
    rw [Json.valuesOf_normal, hjs]
    exact .nothing none
  | @first j a hj =>
    have member := Json.mem_of_valuesOf_eq_singleton hjs
    rw [Json.valuesOf_normal_of_eq_singleton hjs]
    exact .first (agree _ member _ hj)

theorem Fills.of_sorted (unique : (Json.object ms).hasUniqueKeys)
    (agree : ∀ m ∈ ms, ∀ a, read' m.2.sorted = .ok a → read m.2 = .ok a)
    (h : Fills read' none (valuesOf key (inOrder (sortedMembers ms))) o) :
    Fills read none (valuesOf key ms) o := by
  generalize hjs : valuesOf key (inOrder (sortedMembers ms)) = js at h
  cases h with
  | nothing =>
    rw [← Json.map_sorted_valuesOf unique, List.map_eq_nil_iff] at hjs
    rw [hjs]
    exact .nothing none
  | @first i a hi =>
    obtain ⟨j, hj, rfl⟩ := Json.exists_of_valuesOf_normal unique hjs
    have member := Json.mem_of_valuesOf_eq_singleton hj
    rw [hj]
    exact .first (agree _ member _ hi)

end

/-- Whatever a text gives, its value gives. -/
theorem child_sorted (j : Json) {o : Option Shape} (h : child .text j = .ok o) :
    child .value j.sorted = .ok o := by
  induction j using Json.induction generalizing o with
  | array items ih =>
    obtain ⟨k, l, r, v, kind, left, right, value, rfl, hk, hl, hr, hv, rfl⟩ :=
      child_array_eq_ok_iff.1 h
    have hl := ih l (by simp) hl
    have hr := ih r (by simp) hr
    rw [Json.sorted_array]
    exact child_array_eq_ok_iff.2 ⟨k.sorted, l.sorted, r.sorted, v.sorted, kind, left, right, value,
      rfl, nodeKind_sorted hk, hl, hr, nodeValue_sorted hv, rfl⟩
  | object ms ih =>
    obtain ⟨s, shape, filled, closed, rfl⟩ := child_object_eq_ok_iff.1 h
    have children : ∀ m ∈ ms, ∀ o, child .text m.2 = .ok o → child .value m.2.sorted = .ok o :=
      fun m hm _ => ih m hm
    rw [Json.sorted_object]
    refine child_object_eq_ok_iff.2 ⟨s, shape, ?_, closed, rfl⟩
    exact {
      kind := filled.kind.sorted fun _ _ _ => nodeKind_sorted
      left := filled.left.sorted children
      right := filled.right.sorted children
      value := filled.value.sorted fun _ _ _ => nodeValue_sorted }
  | null => exact h
  | _ => cases h

/-- Where no key is repeated, a value gives no more than its text. -/
theorem child_of_sorted (j : Json) (unique : j.hasUniqueKeys) {o : Option Shape}
    (h : child .value j.sorted = .ok o) : child .text j = .ok o := by
  induction j using Json.induction generalizing o with
  | array items ih =>
    rw [Json.sorted_array] at h
    obtain ⟨k, l, r, v, kind, left, right, value, hitems, hk, hl, hr, hv, rfl⟩ :=
      child_array_eq_ok_iff.1 h
    obtain ⟨k, items₁, rfl, rfl, h₁⟩ := List.map_eq_cons_iff.1 hitems
    obtain ⟨l, items₂, rfl, rfl, h₂⟩ := List.map_eq_cons_iff.1 h₁
    obtain ⟨r, items₃, rfl, rfl, h₃⟩ := List.map_eq_cons_iff.1 h₂
    obtain ⟨v, items₄, rfl, rfl, h₄⟩ := List.map_eq_cons_iff.1 h₃
    obtain rfl := List.map_eq_nil_iff.1 h₄
    have uniqueItem := Json.hasUniqueKeys_item unique
    have hk := nodeKind_of_sorted (uniqueItem k (by simp)) hk
    have hl := ih l (by simp) (uniqueItem l (by simp)) hl
    have hr := ih r (by simp) (uniqueItem r (by simp)) hr
    have hv := nodeValue_of_sorted (uniqueItem v (by simp)) hv
    exact child_array_eq_ok_iff.2 ⟨k, l, r, v, kind, left, right, value, rfl, hk, hl, hr, hv, rfl⟩
  | object ms ih =>
    rw [Json.sorted_object] at h
    obtain ⟨s, shape, filled, closed, rfl⟩ := child_object_eq_ok_iff.1 h
    have uniqueMember := Json.hasUniqueKeys_member unique
    have children : ∀ m ∈ ms, ∀ o, child .value m.2.sorted = .ok o → child .text m.2 = .ok o :=
      fun m hm _ => ih m hm (uniqueMember m hm)
    refine child_object_eq_ok_iff.2 ⟨s, shape, ?_, closed, rfl⟩
    exact {
      kind := filled.kind.of_sorted unique fun m hm _ => nodeKind_of_sorted (uniqueMember m hm)
      left := filled.left.of_sorted unique children
      right := filled.right.of_sorted unique children
      value := filled.value.of_sorted unique fun m hm _ => nodeValue_of_sorted (uniqueMember m hm) }
  | null => exact h
  | _ => cases h

/-! ## Trees -/

theorem treeOfValue_of_treeOfText {text : String} {j : Json} (h : Json.ofText? text = some j)
    {t : Tree} (ht : treeOfText text = .ok t) : treeOfValue j = .ok t := by
  rw [treeOfText_eq h] at ht
  obtain ⟨shape, hchild, hshape⟩ := tree_eq_ok_iff.1 ht
  exact tree_eq_ok_iff.2 ⟨shape, child_sorted j hchild, hshape⟩

theorem treeOfText_of_treeOfValue {text : String} {j : Json} (h : Json.ofText? text = some j)
    (unique : j.hasUniqueKeys) {t : Tree} (ht : treeOfValue j = .ok t) : treeOfText text = .ok t := by
  obtain ⟨shape, hchild, hshape⟩ := tree_eq_ok_iff.1 ht
  rw [treeOfText_eq h]
  exact tree_eq_ok_iff.2 ⟨shape, child_of_sorted j unique hchild, hshape⟩

theorem exists_exchange_of_mapError {α : Type} {read : Except Fault α} {e : RuleError}
    (h : read.mapError RuleError.exchange = .error e) : ∃ fault, e = .exchange fault := by
  cases read with
  | error fault =>
    cases h
    exact ⟨fault, rfl⟩
  | ok a => cases h

/-- **Import routes.** The tree that a text gives is given by its value too. Where no object repeats
a key, the value gives a tree only if the text gives it, so that both fail or neither does. All
failures are faults of the exchange format. -/
theorem routes_agree {text : String} {j : Json} (h : Json.ofText? text = some j) :
    (∀ t, treeOfText text = .ok t → ∃ u, treeOfValue j = .ok u ∧ u.sameTree t) ∧
    (j.hasUniqueKeys →
      (∀ t, treeOfValue j = .ok t → ∃ u, treeOfText text = .ok u ∧ u.sameTree t) ∧
      ((∃ fault, treeOfText text = .error fault) ↔ ∃ fault, treeOfValue j = .error fault)) ∧
    ∀ e, (treeOfText text).mapError RuleError.exchange = .error e ∨
      (treeOfValue j).mapError RuleError.exchange = .error e → ∃ fault, e = .exchange fault := by
  have same {t : Tree} (ht : treeOfValue j = .ok t) : t.sameTree t :=
    Tree.sameTree_self (isWritable_of_tree ht)
  refine ⟨?_, ?_, ?_⟩
  · intro t ht
    have read := treeOfValue_of_treeOfText h ht
    exact ⟨t, read, same read⟩
  · intro unique
    refine ⟨fun t ht => ⟨t, treeOfText_of_treeOfValue h unique ht, same ht⟩, ?_⟩
    cases htext : treeOfText text with
    | ok t =>
      rw [treeOfValue_of_treeOfText h htext]
    | error fault =>
      cases hvalue : treeOfValue j with
      | ok t =>
        rw [treeOfText_of_treeOfValue h unique hvalue] at htext
        cases htext
      | error fault' => exact iff_of_true ⟨fault, rfl⟩ ⟨fault', rfl⟩
  · rintro e (he | he)
    · exact exists_exchange_of_mapError he
    · exact exists_exchange_of_mapError he

/-- Members in another order, one that is skipped, a comparator as the key of an object, and a number
beyond the integers. -/
theorem routes_agree_shuffled :
    let text := "\x7b\"value\":\x7b\"x\":[],\"literal\":9223372036854775808," ++
      "\"comparator\":\x7b\"gt\":null\x7d,\"field\":\"a\"\x7d,\"node_type\":\"operand\"\x7d"
    let t : Tree := .operand ⟨"a", .gt, .float (.ofInt 9223372036854775808)⟩
    ∃ j, Json.ofText? text = some j ∧ j.hasUniqueKeys ∧ treeOfText text = .ok t ∧
      ∃ u, treeOfValue j = .ok u ∧ u.sameTree t := by
  intro text t
  have read : (Json.ofText? text).any Json.hasUniqueKeys := by decide +kernel
  have ht : treeOfText text = .ok t := eq_ok_of_toOption (by decide +kernel)
  obtain ⟨j, hj, unique⟩ := (Option.any_eq_true ..).1 read
  exact ⟨j, hj, unique, ht, (routes_agree hj).1 t ht⟩

/-- A repeated key, of which the value keeps the last member and the text takes none. -/
example :
    let text := "\x7b\"node_type\":\"operand\",\"value\":\"OR\"," ++
      "\"value\":\x7b\"field\":\"a\",\"comparator\":\"gt\",\"literal\":1\x7d\x7d"
    (treeOfText text).toOption = none ∧
      ((Json.ofText? text).bind fun j => (treeOfValue j).toOption) =
        some (.operand ⟨"a", .gt, .integer 1⟩) := by
  decide +kernel

end RecordRules.Exchange
