import RecordRules.NamedRule
import RecordRules.Proofs.StoredTree

/-!
# Named rules stored as JSON text

A stored rule is its tree with one member more for a name. The name comes back as it is, and no name
is not the empty one, so a rule comes back as soon as its tree does.
-/

namespace RecordRules.NamedRule

/-! ## The document of a written rule -/

theorem lookedAt_toJson (r : NamedRule) : lookedAt r.toJson.document = r.toJson.document := by
  have tree := Exchange.lookedAt_toJson r.tree
  rcases r with ⟨_ | name, t⟩ <;>
    simp [toJson, Json.document, Json.documentMembers, lookedAt, lookedAtMembers, tree]

theorem toJson?_document {r : NamedRule} (h : ∀ c ∈ r.tree.conditions, c.literal.IsFinite) :
    r.toJson.document.toJson? = r.tree.reread?.map fun t => toJson ⟨r.name, t⟩ := by
  have tree := Tree.toJson?_document h
  rcases r with ⟨_ | name, t⟩ <;>
    simp only [toJson, Option.map_none, Option.map_some, Option.toList_none, Option.toList_some,
      List.nil_append, List.cons_append, Json.document, Json.documentMembers,
      Json.Document.toJson?, Json.Document.membersToJson?, tree] <;>
    cases t.reread? <;> rfl

/-! ## Reading a written rule -/

theorem ofJson_toJson {r : NamedRule} (h : r.tree.IsWritable) : ofJson r.toJson = .ok r := by
  have read : Exchange.tree .text r.tree.toJson = .ok r.tree := Exchange.tree_toJson h .text
  obtain ⟨name, t⟩ := r
  have members : ofMembers (name.map some) none [("ast", t.toJson)] = .ok ⟨name, t⟩ := by
    rw [ofMembers, if_neg (by decide), if_pos rfl, Exchange.once]
    dsimp only [Option.isSome]
    rw [if_neg Bool.false_ne_true, read]
    cases name <;> rfl
  cases name with
  | none => exact members
  | some name =>
    change ofMembers none none [("name", .string name), ("ast", t.toJson)] = _
    rw [ofMembers, if_pos rfl]
    exact members

/-- A rule is read with the literals of its tree read again, as its tree would be by itself. -/
theorem ofText_toJson {r : NamedRule} (h : r.tree.IsWritable) :
    ofText r.toJson.text =
      r.tree.reread?.elim (.error .malformed) fun t => .ok ⟨r.name, t⟩ := by
  have document := toJson?_document (Tree.isWritable_iff.1 h).1
  rw [ofText, Exchange.readText, Json.ofText?_text]
  dsimp only
  rw [lookedAt_toJson, document]
  cases ht : r.tree.reread? with
  | none => rfl
  | some t =>
    have read : ofJson (toJson ⟨r.name, t⟩) = .ok ⟨r.name, t⟩ :=
      ofJson_toJson (Tree.isWritable_of_reread? h ht)
    rw [Option.map_some]
    dsimp only
    rw [read]
    rfl

theorem sameRule_self {r : NamedRule} (h : r.tree.IsWritable) : r.sameRule r := by
  simp [sameRule, Tree.sameTree_self h]

/-- **Storage.** A tree of any depth and with any fields, each literal of which can be written and
survives its own JSON text, comes back from the text that it is stored in. So does a rule of such a
tree, with its name or without one. -/
theorem ofText_stored {t : Tree} (writable : t.IsWritable)
    (survives : ∀ c ∈ t.conditions, c.literal.Survives) :
    Exchange.treeOfText t.toJson.text = .ok t ∧ t.sameTree t ∧
    ∀ name, ofText (toJson ⟨name, t⟩).text = .ok ⟨name, t⟩ ∧ sameRule ⟨name, t⟩ ⟨name, t⟩ := by
  have reread := Tree.reread?_eq_self survives
  refine ⟨?_, Tree.sameTree_self writable, fun name => ⟨?_, sameRule_self writable⟩⟩
  · rw [Exchange.treeOfText_toJson writable, reread]
    rfl
  · rw [ofText_toJson writable]
    dsimp only
    rw [reread]
    rfl

/-- Fields of characters that are escaped, and a rule with the empty name beside one without. -/
theorem ofText_stored_escaped :
    let t : Tree := .operator .or
      (.operator .and (.operand ⟨"a\"\\\n\x00", .gteq, .float (.signed true (.nearest 1 4))⟩)
        (.operand ⟨"", .neq, .integer Int64.minValue⟩)) (.operand ⟨"é'", .eq, .string "\"\t"⟩)
    Exchange.treeOfText t.toJson.text = .ok t ∧
      ofText (toJson ⟨none, t⟩).text = .ok ⟨none, t⟩ ∧
      ofText (toJson ⟨some "", t⟩).text = .ok ⟨some "", t⟩ := by
  intro t
  have stored := ofText_stored (show t.IsWritable by decide +kernel)
    (show ∀ c ∈ t.conditions, c.literal.Survives by decide +kernel)
  exact ⟨stored.1, (stored.2.2 none).1, (stored.2.2 (some "")).1⟩

end RecordRules.NamedRule
