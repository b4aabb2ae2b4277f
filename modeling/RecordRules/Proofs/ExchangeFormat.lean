import RecordRules.Proofs.ImportRoutes

/-!
# The exchange format

Which JSON values describe a tree. The documented format writes nodes and conditions as objects and
words as strings. What is read is more: a node or a condition can be an array of its parts in order,
and a word can be the one key of an object.
-/

namespace RecordRules

namespace Json

theorem valuesOf_normal_eq_field? (key : String) (ms : List (String × Json)) :
    valuesOf key (inOrder (sortedMembers ms)) =
      (((object ms).field? key).map sorted).toList := by
  rw [valuesOf_normal, field?_object, List.getLast?_map]

theorem valuesOf_normal_eq_singleton_iff {key : String} {ms : List (String × Json)} {i : Json} :
    valuesOf key (inOrder (sortedMembers ms)) = [i] ↔
      ∃ j, (object ms).field? key = some j ∧ j.sorted = i := by
  rw [valuesOf_normal_eq_field?]
  cases (object ms).field? key <;> simp

end Json

namespace Exchange

open Json (inOrder sortedMembers valuesOf)

/-! ## What describes a tree -/

/-- Ways to write a tree: the documented one, and all that are read. -/
inductive Format
  | documented
  | accepted
  deriving DecidableEq

/-- A word is written as a string. It is also read as the key of an object that has no other key and
null under this one. -/
inductive Format.Word (f : Format) : Json → String → Prop
  | string (s : String) : f.Word (.string s) s
  | key {j : Json} {s : String} (reading : f = .accepted)
      (only : j.sorted = .object [(s, .null)]) : f.Word j s

/-- The part of a name is the member of that name. The parts are also read from an array that has
one for each name, in the order of the names. -/
def Format.part? (f : Format) (names : List String) (j : Json) (name : String) : Option Json :=
  match j with
  | .array items =>
    if f = .accepted ∧ items.length = names.length then (names.zip items).lookup name else none
  | j => j.field? name

def conditionKeys : List String := ["field", "comparator", "literal"]

/-- A literal is a number, which is an integer if 64 bits hold it with its sign, or a string that
does not hold both kinds of quote. -/
inductive DescribesLiteral : Json → Literal → Prop
  | integer (n : Int64) : DescribesLiteral (.number (.ofInt64 n)) (.integer n)
  | wide {n : Int} {low : Int64.minValue.toInt ≤ n} {high : n < UInt64.size}
      (wide : Int64.maxValue.toInt < n) :
      DescribesLiteral (.number (.integer n low high)) (.float (.ofInt n))
  | float {x : Binary64} (finite : x.IsFinite) : DescribesLiteral (.number (.float x finite)) (.float x)
  | string {s : String} (quotes : ¬ ('\'' ∈ s.toList ∧ '"' ∈ s.toList)) :
      DescribesLiteral (.string s) (.string s)

structure Format.DescribesCondition (f : Format) (j : Json) (c : Condition) : Prop where
  field : f.part? conditionKeys j "field" = some (.string c.field)
  comparator : ∃ k, f.part? conditionKeys j "comparator" = some k ∧ f.Word k c.comparator.name
  literal : ∃ l, f.part? conditionKeys j "literal" = some l ∧ DescribesLiteral l c.literal

/-- A leaf carries a condition and has no children or null for them; an operator carries a keyword
and has two children. -/
inductive Format.Describes (f : Format) : Json → Tree → Prop
  | operand {j kind value : Json} {c : Condition}
      (hkind : f.part? nodeKeys j "node_type" = some kind) (word : f.Word kind "operand")
      (left : ∀ l ∈ f.part? nodeKeys j "left", l = .null)
      (right : ∀ r ∈ f.part? nodeKeys j "right", r = .null)
      (hvalue : f.part? nodeKeys j "value" = some value) (carries : f.DescribesCondition value c) :
      f.Describes j (.operand c)
  | operator {j kind value l r : Json} {k : Combinator} {left right : Tree}
      (hkind : f.part? nodeKeys j "node_type" = some kind) (word : f.Word kind "operator")
      (hvalue : f.part? nodeKeys j "value" = some value) (carries : f.Word value k.keyword)
      (hleft : f.part? nodeKeys j "left" = some l) (describesLeft : f.Describes l left)
      (hright : f.part? nodeKeys j "right" = some r) (describesRight : f.Describes r right) :
      f.Describes j (.operator k left right)

/-! ## Words and literals -/

theorem tag?_sorted_eq_some_iff {j : Json} {s : String} :
    tag? j.sorted = some s ↔ Format.accepted.Word j s := by
  rw [tag?_eq_some_iff, Json.sorted_eq_string_iff]
  constructor
  · rintro (rfl | only)
    · exact .string s
    · exact .key rfl only
  · rintro (_ | ⟨-, only⟩)
    · exact .inl rfl
    · exact .inr only

/-- What is found by its own name is found by no other. -/
theorem find?_name_eq_some_iff {α : Type} {all : List α} {name : α → String}
    (found : ∀ a, all.find? (name · == name a) = some a) {s : String} {a : α} :
    all.find? (name · == s) = some a ↔ s = name a := by
  constructor
  · intro h
    have same := List.find?_some h
    exact (beq_iff_eq.1 same).symm
  · rintro rfl
    exact found a

theorem bind_tag?_sorted_eq_some_iff {α : Type} {all : List α} {name : α → String}
    (found : ∀ a, all.find? (name · == name a) = some a) {j : Json} {a : α} :
    ((tag? j.sorted).bind fun s => all.find? (name · == s)) = some a ↔
      Format.accepted.Word j (name a) := by
  simp only [Option.bind_eq_some_iff, tag?_sorted_eq_some_iff, find?_name_eq_some_iff found,
    exists_eq_right]

theorem describesLiteral_iff {j : Json} {l : Literal} :
    DescribesLiteral j l ↔ literal? j = some l ∧ l.mixesQuotes = false := by
  constructor
  · rintro (n | wide | finite | quotes)
    · exact ⟨literal?_toJson (l := .integer n) trivial, rfl⟩
    · simp only [literal?]
      rw [if_neg (by omega)]
      exact ⟨rfl, rfl⟩
    · exact ⟨rfl, rfl⟩
    · refine ⟨rfl, ?_⟩
      simpa [Literal.mixesQuotes] using quotes
  · rintro ⟨h, quotes⟩
    unfold literal? at h
    split at h
    · rename_i n
      cases h
      cases n with
      | float x finite => exact .float finite
      | integer n low high =>
        dsimp only
        split
        · rename_i range
          have least : Int64.minValue.toInt = -2 ^ 63 := by decide
          have most : Int64.maxValue.toInt = 2 ^ 63 - 1 := by decide
          have same : (Int64.ofInt n).toInt = n := Int64.toInt_ofInt_of_le (by omega) (by omega)
          have number : Json.Number.integer n low high = .ofInt64 (.ofInt n) := by
            simp [Json.Number.ofInt64, same]
          rw [number]
          exact .integer _
        · exact .wide (by omega)
    · cases h
      refine .string ?_
      simpa [Literal.mixesQuotes] using quotes
    · cases h

/-! ## Parts -/

section
variable {names : List String} {name : String} {j : Json}

theorem part?_object (f : Format) (ms : List (String × Json)) :
    f.part? names (.object ms) name = (Json.object ms).field? name := rfl

/-- The documented parts are read. -/
theorem part?_documented {part : Json} (h : Format.documented.part? names j name = some part)
    (other : String) :
    Format.accepted.part? names j other = Format.documented.part? names j other := by
  cases j with
  | array items => simp [Format.part?] at h
  | _ => rfl

end

/-- A condition is read part by part, from an object or from an array. -/
theorem conditionOf?_sorted_eq_some_iff {j : Json} {c : Condition} :
    conditionOf? j.sorted = some c ↔ ∃ field comparator literal,
      Format.accepted.part? conditionKeys j "field" = some field ∧
      Format.accepted.part? conditionKeys j "comparator" = some comparator ∧
      Format.accepted.part? conditionKeys j "literal" = some literal ∧
      condition? field.sorted comparator.sorted literal.sorted = some c := by
  cases j with
  | object ms =>
    rw [Json.sorted_object, conditionOf?_object_eq_some_iff]
    simp only [Json.valuesOf_normal_eq_singleton_iff, part?_object]
    constructor
    · rintro ⟨-, -, -, ⟨field, hfield, rfl⟩, ⟨comparator, hcomparator, rfl⟩,
        ⟨literal, hliteral, rfl⟩, hc⟩
      exact ⟨field, comparator, literal, hfield, hcomparator, hliteral, hc⟩
    · rintro ⟨field, comparator, literal, hfield, hcomparator, hliteral, hc⟩
      exact ⟨_, _, _, ⟨field, hfield, rfl⟩, ⟨comparator, hcomparator, rfl⟩,
        ⟨literal, hliteral, rfl⟩, hc⟩
  | array items =>
    rw [Json.sorted_array, conditionOf?_array_eq_some_iff]
    rcases items with _ | ⟨field, _ | ⟨comparator, _ | ⟨literal, _ | ⟨more, rest⟩⟩⟩⟩ <;>
      simp [Format.part?, conditionKeys, List.lookup_cons]
  | _ => simp [Json.sorted, conditionOf?, Format.part?, Json.field?]

theorem describesCondition_iff {j : Json} {c : Condition} :
    Format.accepted.DescribesCondition j c ↔
      conditionOf? j.sorted = some c ∧ c.literal.mixesQuotes = false := by
  have names (k : Json) : (tag? k.sorted).bind Comparator.ofName? = some c.comparator ↔
      Format.accepted.Word k c.comparator.name :=
    bind_tag?_sorted_eq_some_iff Comparator.ofName?_name
  simp only [conditionOf?_sorted_eq_some_iff, condition?_eq_some_iff, Json.sorted_eq_string_iff,
    literal?_sorted, names]
  constructor
  · rintro ⟨field, ⟨k, hk, word⟩, ⟨l, hl, literal⟩⟩
    obtain ⟨read, quotes⟩ := describesLiteral_iff.1 literal
    exact ⟨⟨_, k, l, field, hk, hl, rfl, word, read⟩, quotes⟩
  · rintro ⟨⟨_, k, l, field, hk, hl, rfl, word, read⟩, quotes⟩
    exact ⟨field, ⟨k, hk, word⟩, ⟨l, hl, describesLiteral_iff.2 ⟨read, quotes⟩⟩⟩

theorem nodeKind_sorted_eq_ok_iff {j : Json} {k : NodeKind} :
    nodeKind .value j.sorted = .ok k ↔ Format.accepted.Word j k.name := by
  rw [nodeKind_eq_ok_iff]
  apply bind_tag?_sorted_eq_some_iff
  intro k
  cases k <;> rfl

theorem nodeValue_sorted_eq_combinator_iff {j : Json} {k : Combinator} :
    nodeValue j.sorted = .ok (.combinator k) ↔ Format.accepted.Word j k.keyword := by
  rw [nodeValue_eq_combinator_iff]
  exact bind_tag?_sorted_eq_some_iff Combinator.ofKeyword?_keyword

/-! ## Nodes -/

theorem fills_singleton_iff {α : Type} {read : Json → Except Fault α} {j : Json}
    {slot : Option α} : Fills read none [j] slot ↔ ∃ a, read j = .ok a ∧ some a = slot := by
  constructor
  · rintro (_ | h)
    exact ⟨_, h, rfl⟩
  · rintro ⟨a, h, rfl⟩
    exact .first h

section
variable {ms : List (String × Json)} {key : String}

theorem fills_normal_some_iff {α : Type} {read : Json → Except Fault α} {a : α} :
    Fills read none (valuesOf key (inOrder (sortedMembers ms))) (some a) ↔
      ∃ j, (Json.object ms).field? key = some j ∧ read j.sorted = .ok a := by
  rw [Json.valuesOf_normal_eq_field?]
  cases (Json.object ms).field? key with
  | none => simp [fills_nil_iff]
  | some j => simp [fills_singleton_iff]

/-- A child that is left out is read as null is. -/
theorem exists_fills_normal_child_iff {o : Option Shape} :
    (∃ slot, Fills (child .value) none (valuesOf key (inOrder (sortedMembers ms))) slot ∧
      slot.join = o) ↔
      child .value (((Json.object ms).field? key).getD .null).sorted = .ok o := by
  rw [Json.valuesOf_normal_eq_field?]
  cases (Json.object ms).field? key with
  | none => simp [fills_nil_iff, Json.sorted, child]
  | some j => simp [fills_singleton_iff]

theorem Slots.close_eq_ok_iff {s : Slots} {kind : NodeKind} {left right : Option Shape}
    {value : NodeValue} : s.close = .ok (.node kind left right value) ↔
      s.kind = some kind ∧ s.left.join = left ∧ s.right.join = right ∧ s.value = some value := by
  obtain ⟨_ | k, l, r, _ | v⟩ := s <;> simp [close]

end

/-- A node is read part by part, from an object or from an array. -/
theorem child_sorted_eq_ok_iff {j : Json} {kind : NodeKind} {left right : Option Shape}
    {value : NodeValue} :
    child .value j.sorted = .ok (some (.node kind left right value)) ↔
      (∃ k, Format.accepted.part? nodeKeys j "node_type" = some k ∧
        nodeKind .value k.sorted = .ok kind) ∧
      child .value ((Format.accepted.part? nodeKeys j "left").getD .null).sorted = .ok left ∧
      child .value ((Format.accepted.part? nodeKeys j "right").getD .null).sorted = .ok right ∧
      ∃ v, Format.accepted.part? nodeKeys j "value" = some v ∧ nodeValue v.sorted = .ok value := by
  cases j with
  | object ms =>
    rw [Json.sorted_object, child_object_eq_ok_iff]
    simp only [part?_object, ← fills_normal_some_iff, ← exists_fills_normal_child_iff]
    constructor
    · rintro ⟨s, shape, filled, closed, h⟩
      cases h
      obtain ⟨hkind, hleft, hright, hvalue⟩ := Slots.close_eq_ok_iff.1 closed
      exact ⟨hkind ▸ filled.kind, ⟨s.left, filled.left, hleft⟩, ⟨s.right, filled.right, hright⟩,
        hvalue ▸ filled.value⟩
    · rintro ⟨hkind, ⟨l, hl, hleft⟩, ⟨r, hr, hright⟩, hvalue⟩
      refine ⟨⟨some kind, l, r, some value⟩, _, ⟨hkind, hl, hr, hvalue⟩, ?_, rfl⟩
      exact Slots.close_eq_ok_iff.2 ⟨rfl, hleft, hright, rfl⟩
  | array items =>
    rw [Json.sorted_array, child_array_eq_ok_iff]
    rcases items with _ | ⟨k, _ | ⟨l, _ | ⟨r, _ | ⟨v, _ | ⟨more, rest⟩⟩⟩⟩⟩ <;>
      simp [Format.part?, nodeKeys, List.lookup_cons]
  | _ => simp [Json.sorted, child, Format.part?, Json.field?]

theorem child_getD_eq_none_iff {part : Option Json} :
    child .value (part.getD .null).sorted = .ok none ↔ ∀ l ∈ part, l = .null := by
  cases part with
  | none => simp [Json.sorted, child]
  | some j =>
    simp only [Option.getD_some, Option.mem_some_iff, forall_eq']
    constructor
    · intro h
      exact Json.sorted_eq_null_iff.1 (eq_null_of_child h)
    · rintro rfl
      rfl

theorem child_getD_eq_some_iff {part : Option Json} {shape : Shape} :
    child .value (part.getD .null).sorted = .ok (some shape) ↔
      ∃ l, part = some l ∧ child .value l.sorted = .ok (some shape) := by
  cases part <;> simp [Json.sorted, child]

/-! ## Trees -/

theorem eq_shapeOf_of_toTree {shape : Shape} {t : Tree} (h : shape.toTree = .ok t) :
    shape = shapeOf t ∧ ∀ c ∈ t.conditions, c.literal.mixesQuotes = false := by
  induction t generalizing shape with
  | operand c =>
    unfold Shape.toTree at h
    split at h
    · split at h
      · cases h
      · split at h <;> cases h
        simp_all [shapeOf, Tree.conditions]
    · obtain ⟨l, -, h⟩ := exists_of_bind_eq_ok h
      obtain ⟨r, -, h⟩ := exists_of_bind_eq_ok h
      cases h
    all_goals cases h
  | operator k left right ihl ihr =>
    unfold Shape.toTree at h
    split at h
    · split at h
      · cases h
      · split at h <;> cases h
    · obtain ⟨l, hl, h⟩ := exists_of_bind_eq_ok h
      obtain ⟨r, hr, h⟩ := exists_of_bind_eq_ok h
      cases h
      obtain ⟨rfl, quotesLeft⟩ := ihl hl
      obtain ⟨rfl, quotesRight⟩ := ihr hr
      exact ⟨rfl, Tree.forall_conditions_operator.2 ⟨quotesLeft, quotesRight⟩⟩
    all_goals cases h

theorem toTree_eq_ok_iff {shape : Shape} {t : Tree} : shape.toTree = .ok t ↔
    shape = shapeOf t ∧ ∀ c ∈ t.conditions, c.literal.mixesQuotes = false := by
  constructor
  · exact eq_shapeOf_of_toTree
  · rintro ⟨rfl, quotes⟩
    exact toTree_shapeOf quotes

theorem describes_iff {j : Json} {t : Tree} : Format.accepted.Describes j t ↔
    child .value j.sorted = .ok (some (shapeOf t)) ∧
      ∀ c ∈ t.conditions, c.literal.mixesQuotes = false := by
  induction t generalizing j with
  | operand c =>
    simp only [shapeOf, child_sorted_eq_ok_iff, nodeKind_sorted_eq_ok_iff, child_getD_eq_none_iff,
      nodeValue_eq_condition_iff, Tree.conditions, List.mem_singleton, forall_eq]
    constructor
    · rintro ⟨hkind, word, left, right, hvalue, carries⟩
      obtain ⟨read, quotes⟩ := describesCondition_iff.1 carries
      exact ⟨⟨⟨_, hkind, word⟩, left, right, _, hvalue, read⟩, quotes⟩
    · rintro ⟨⟨⟨kind, hkind, word⟩, left, right, value, hvalue, read⟩, quotes⟩
      exact .operand hkind word left right hvalue (describesCondition_iff.2 ⟨read, quotes⟩)
  | operator k left right ihl ihr =>
    simp only [shapeOf, child_sorted_eq_ok_iff, nodeKind_sorted_eq_ok_iff, child_getD_eq_some_iff,
      nodeValue_sorted_eq_combinator_iff, Tree.forall_conditions_operator]
    constructor
    · rintro (_ | ⟨hkind, word, hvalue, carries, hleft, describesLeft, hright, describesRight⟩)
      obtain ⟨readLeft, quotesLeft⟩ := ihl.1 describesLeft
      obtain ⟨readRight, quotesRight⟩ := ihr.1 describesRight
      exact ⟨⟨⟨_, hkind, word⟩, ⟨_, hleft, readLeft⟩, ⟨_, hright, readRight⟩, _, hvalue, carries⟩,
        quotesLeft, quotesRight⟩
    · rintro ⟨⟨⟨kind, hkind, word⟩, ⟨l, hleft, readLeft⟩, ⟨r, hright, readRight⟩, value, hvalue,
        carries⟩, quotesLeft, quotesRight⟩
      exact .operator hkind word hvalue carries hleft (ihl.2 ⟨readLeft, quotesLeft⟩) hright
        (ihr.2 ⟨readRight, quotesRight⟩)

theorem treeOfValue_eq_ok_iff {j : Json} {t : Tree} :
    treeOfValue j = .ok t ↔ Format.accepted.Describes j t := by
  rw [treeOfValue, tree_eq_ok_iff, describes_iff]
  simp only [toTree_eq_ok_iff]
  constructor
  · rintro ⟨shape, read, rfl, quotes⟩
    exact ⟨read, quotes⟩
  · rintro ⟨read, quotes⟩
    exact ⟨_, read, rfl, quotes⟩

/-! ## The documented format -/

section
variable {j : Json}

theorem Format.Describes.exists_kind {f : Format} {t : Tree} (h : f.Describes j t) :
    ∃ kind, f.part? nodeKeys j "node_type" = some kind := by
  cases h with
  | operand hkind => exact ⟨_, hkind⟩
  | operator hkind => exact ⟨_, hkind⟩

theorem Format.Word.accepted {s : String} (h : documented.Word j s) : Format.accepted.Word j s := by
  cases h with
  | string s => exact .string s
  | key reading only => cases reading

theorem Format.DescribesCondition.accepted {c : Condition} (h : documented.DescribesCondition j c) :
    Format.accepted.DescribesCondition j c := by
  have part := part?_documented h.field
  obtain ⟨k, hk, word⟩ := h.comparator
  constructor
  · rw [part, h.field]
  · exact ⟨k, by rw [part, hk], word.accepted⟩
  · simpa only [part] using h.literal

/-- What the documented format describes is read as it is described. -/
theorem Format.Describes.accepted {t : Tree} (h : documented.Describes j t) :
    Format.accepted.Describes j t := by
  induction h with
  | operand hkind word left right hvalue carries =>
    have part := part?_documented hkind
    simp only [← part] at hkind left right hvalue
    exact .operand hkind word.accepted left right hvalue carries.accepted
  | operator hkind word hvalue carries hleft _ hright _ ihl ihr =>
    have part := part?_documented hkind
    simp only [← part] at hkind hvalue hleft hright
    exact .operator hkind word.accepted hvalue carries.accepted hleft ihl hright ihr

end

/-- **Format.** A value is read as a tree just if it describes the tree with nodes and conditions as
objects or arrays and words as strings or keys, so whenever it does by the documented format; all
else is a fault of the exchange format. -/
theorem treeOfValue_describes (j : Json) :
    (∀ t, treeOfValue j = .ok t ↔ Format.accepted.Describes j t) ∧
    (∀ t, Format.documented.Describes j t → treeOfValue j = .ok t) ∧
    ((∀ t, ¬ Format.accepted.Describes j t) →
      ∃ fault, (treeOfValue j).mapError RuleError.exchange = .error (.exchange fault)) := by
  refine ⟨fun t => treeOfValue_eq_ok_iff, fun t h => treeOfValue_eq_ok_iff.2 h.accepted, ?_⟩
  intro other
  cases h : treeOfValue j with
  | ok t => exact absurd (treeOfValue_eq_ok_iff.1 h) (other t)
  | error fault => exact ⟨fault, rfl⟩

/-- Members in another order, one that is repeated and one that is ignored, a number beyond 64 bits
with a sign; and a string, which describes nothing. -/
theorem treeOfValue_describes_leaf :
    let condition : Json := .object [("literal", .number (.ofUInt64 9223372036854775808)),
      ("x", .array []), ("comparator", .string "gt"), ("field", .string "a")]
    let leaf : Json := .object [("value", condition), ("node_type", .string "operator"),
      ("left", .null), ("node_type", .string "operand")]
    treeOfValue leaf = .ok (.operand ⟨"a", .gt, .float (.ofInt 9223372036854775808)⟩) ∧
      ∃ fault, (treeOfValue (.string "AND")).mapError RuleError.exchange =
        .error (.exchange fault) := by
  intro condition leaf
  constructor
  · apply (treeOfValue_describes leaf).2.1
    refine .operand rfl (.string "operand") ?_ ?_ rfl ?_
    · rintro l ⟨⟩
      rfl
    · rintro r ⟨⟩
    · exact ⟨rfl, ⟨_, rfl, .string "gt"⟩, ⟨_, rfl, .wide (by decide)⟩⟩
  · apply (treeOfValue_describes (.string "AND")).2.2
    intro t h
    obtain ⟨kind, hkind⟩ := h.exists_kind
    cases hkind

/-- A leaf as an array of its parts, which is read and is not of the documented format. -/
theorem treeOfValue_describes_array :
    let leaf : Json := .array [.string "operand", .null, .null,
      .object [("field", .string "x"), ("comparator", .string "eq"),
        ("literal", .number (.ofInt64 1))]]
    treeOfValue leaf = .ok (.operand ⟨"x", .eq, .integer 1⟩) ∧
      ∀ t, ¬ Format.documented.Describes leaf t := by
  intro leaf
  refine ⟨rfl, fun t h => ?_⟩
  obtain ⟨kind, hkind⟩ := h.exists_kind
  cases hkind

end Exchange

end RecordRules
