import RecordRules.Proofs.CompiledLiterals
import RecordRules.Proofs.ExactReading
import RecordRules.Proofs.Exchange
import RecordRules.Proofs.WrittenJson

/-!
# Trees stored as JSON text

A stored tree is read back with its fields, comparators, integers and strings. Each float is read
from its own text, and the reader of numbers rounds twice. So the tree comes back as it was if and
only if each of its floats does, and some floats do not.
-/

namespace RecordRules

/-! ## Literals read again -/

namespace Literal

open Json (Number)

/-- The literal that is read from the JSON text of a literal, if one is. -/
def reread? : Literal → Option Literal
  | float x => do
    let n ← (← Number.ofBinary64? x).reread?
    Exchange.literal? (.number n)
  | l => some l

/-- A literal that its JSON text keeps. -/
def Survives (l : Literal) : Prop := l.reread? = some l

instance (l : Literal) : Decidable l.Survives := inferInstanceAs (Decidable (_ = _))

theorem reread?_float {x : Binary64} (h : x.IsFinite) :
    (float x).reread? = (Number.float x h).reread?.bind fun n => Exchange.literal? (.number n) := by
  have hnumber : Number.ofBinary64? x = some (.float x h) := dif_pos h
  rw [reread?, hnumber]
  rfl

theorem reread?_float_cases {negative : Bool} {m : Magnitude}
    (h : (Binary64.signed negative m).IsFinite) :
    ((Number.float _ h).reread? = none ∧ (float (.signed negative m)).reread? = none) ∨
      ∃ m', ∃ h' : (Binary64.signed negative m').IsFinite,
        (Number.float _ h).reread? = some (.float _ h') ∧
          (float (.signed negative m)).reread? = some (float (.signed negative m')) := by
  obtain ⟨t, -, -, hread⟩ := Number.reread?_float h
  rw [reread?_float h, hread]
  cases hm : Json.NumberText.magnitude? t.toDecimal with
  | none => exact .inl ⟨rfl, rfl⟩
  | some m' =>
    by_cases h' : (Binary64.signed negative m').IsFinite
    · have hnumber : Number.ofBinary64? (.signed negative m') = some (.float _ h') := dif_pos h'
      rw [Option.bind_some, hnumber]
      exact .inr ⟨m', h', rfl, rfl⟩
    · have hnumber : Number.ofBinary64? (.signed negative m') = none := dif_neg h'
      rw [Option.bind_some, hnumber]
      exact .inl ⟨rfl, rfl⟩

theorem toJson_float {x : Binary64} (h : x.IsFinite) :
    (float x).toJson = .number (.float x h) := by
  have hnumber : Number.ofBinary64? x = some (.float x h) := dif_pos h
  rw [toJson, hnumber]
  rfl

theorem toJson?_document {l : Literal} (h : l.IsFinite) :
    l.toJson.document.toJson? = l.reread?.map toJson := by
  cases l with
  | integer n =>
    rw [toJson, Json.document, Number.ofInt64, Number.reread?_integer]
    rfl
  | string s => rfl
  | float x =>
    cases x with
    | nan => exact False.elim h
    | signed negative m =>
      have h : (Binary64.signed negative m).IsFinite := h
      rw [toJson_float h, Json.document]
      rcases reread?_float_cases h with ⟨hnumber, hliteral⟩ | ⟨m', h', hnumber, hliteral⟩
      · rw [hnumber, hliteral]
        rfl
      · rw [hnumber, hliteral, Option.map_some, toJson_float h']
        rfl

theorem isWritable_of_reread? {l l' : Literal} (h : l.IsWritable) (hl : l.reread? = some l') :
    l'.IsWritable := by
  cases l with
  | integer n | string s =>
    cases hl
    exact h
  | float x =>
    cases x with
    | nan => exact False.elim h
    | signed negative m =>
      rcases reread?_float_cases h with ⟨-, hliteral⟩ | ⟨m', h', -, hliteral⟩
      · rw [hliteral] at hl
        cases hl
      · rw [hliteral] at hl
        cases hl
        exact h'

theorem eq_of_sameNumber {negative : Bool} {m m' : Magnitude}
    (same : (Binary64.signed negative m').sameNumber (.signed negative m)) : m' = m := by
  have places := Binary64.sameNumber_signed_iff.1 same
  apply Fin.ext
  cases negative with
  | true =>
    simp only [Binary64.place, if_true] at places
    omega
  | false =>
    simp only [Binary64.place, Bool.false_eq_true, if_false] at places
    omega

/-- What comes back is the same literal as soon as it is an equal one. -/
theorem eq_of_sameValue_reread? {l l' : Literal} (h : l.IsFinite) (hl : l.reread? = some l')
    (same : l'.sameValue l) : l' = l := by
  cases l with
  | integer n | string s =>
    cases hl
    rfl
  | float x =>
    cases x with
    | nan => exact False.elim h
    | signed negative m =>
      rcases reread?_float_cases h with ⟨-, hliteral⟩ | ⟨m', h', -, hliteral⟩
      · rw [hliteral] at hl
        cases hl
      · rw [hliteral] at hl
        cases hl
        rw [eq_of_sameNumber same]

/-- An integer, a string, or a float whose text has few digits and a small power of ten. -/
def IsShort : Literal → Prop
  | float x => ∃ h : x.IsFinite, (Number.float x h).IsShort
  | _ => True

instance (l : Literal) : Decidable l.IsShort :=
  match l with
  | float x => inferInstanceAs (Decidable (∃ h : x.IsFinite, (Number.float x h).IsShort))
  | integer _ | string _ => .isTrue trivial

theorem survives_of_isShort {l : Literal} (h : l.IsShort) : l.Survives := by
  cases l with
  | integer n | string s => rfl
  | float x =>
    obtain ⟨hx, short⟩ := h
    rw [Survives, reread?_float hx, Number.reread?_of_isShort short]
    rfl

end Literal

/-! ## Trees read again -/

namespace Tree

/-- The tree with each literal read again, if all of them are. -/
def reread? : Tree → Option Tree
  | operand c => c.literal.reread?.map fun l => operand { c with literal := l }
  | operator k left right => do return operator k (← left.reread?) (← right.reread?)

theorem toJson?_document_condition {c : Condition} (h : c.literal.IsFinite) :
    c.toJson.document.toJson? =
      c.literal.reread?.map fun l => { c with literal := l : Condition }.toJson := by
  have literal := Literal.toJson?_document h
  simp only [Condition.toJson, Json.document, Json.documentMembers, Json.Document.toJson?,
    Json.Document.membersToJson?, literal]
  cases c.literal.reread? <;> rfl

theorem toJson?_document {t : Tree} (h : ∀ c ∈ t.conditions, c.literal.IsFinite) :
    t.toJson.document.toJson? = t.reread?.map toJson := by
  induction t with
  | operand c =>
    have condition := toJson?_document_condition (h c (List.mem_singleton.2 rfl))
    simp only [toJson, Json.document, Json.documentMembers, Json.Document.toJson?,
      Json.Document.membersToJson?, condition, reread?]
    cases c.literal.reread? <;> rfl
  | operator k left right ihl ihr =>
    obtain ⟨hl, hr⟩ := forall_conditions_operator.1 h
    simp only [toJson, Json.document, Json.documentMembers, Json.Document.toJson?,
      Json.Document.membersToJson?, ihl hl, ihr hr, reread?]
    cases left.reread? <;> cases right.reread? <;> rfl

theorem reread?_operand_eq_some_iff {c : Condition} {u : Tree} :
    (operand c).reread? = some u ↔
      ∃ l, c.literal.reread? = some l ∧ operand { c with literal := l } = u :=
  Option.map_eq_some_iff

theorem reread?_operator_eq_some_iff {k : Combinator} {left right u : Tree} :
    (operator k left right).reread? = some u ↔
      ∃ l r, left.reread? = some l ∧ right.reread? = some r ∧ operator k l r = u := by
  rw [reread?]
  cases left.reread? <;> cases right.reread? <;> simp

theorem isWritable_of_reread? {t u : Tree} (h : t.IsWritable) (hu : t.reread? = some u) :
    u.IsWritable := by
  induction t generalizing u with
  | operand c =>
    obtain ⟨l, hl, rfl⟩ := reread?_operand_eq_some_iff.1 hu
    intro d hd
    obtain rfl := List.mem_singleton.1 hd
    exact Literal.isWritable_of_reread? (h c (List.mem_singleton.2 rfl)) hl
  | operator k left right ihl ihr =>
    obtain ⟨hl, hr⟩ := isWritable_operator.1 h
    obtain ⟨l, r, hleft, hright, rfl⟩ := reread?_operator_eq_some_iff.1 hu
    exact isWritable_operator.2 ⟨ihl hl hleft, ihr hr hright⟩

theorem reread?_eq_self {t : Tree} (h : ∀ c ∈ t.conditions, c.literal.Survives) :
    t.reread? = some t := by
  induction t with
  | operand c =>
    exact reread?_operand_eq_some_iff.2 ⟨c.literal, h c (List.mem_singleton.2 rfl), rfl⟩
  | operator k left right ihl ihr =>
    obtain ⟨hl, hr⟩ := forall_conditions_operator.1 h
    exact reread?_operator_eq_some_iff.2 ⟨left, right, ihl hl, ihr hr, rfl⟩

/-- An equal tree comes back only if each literal comes back as it was. -/
theorem survives_of_sameTree {t u : Tree} (h : ∀ c ∈ t.conditions, c.literal.IsFinite)
    (hu : t.reread? = some u) (same : u.sameTree t) : ∀ c ∈ t.conditions, c.literal.Survives := by
  induction t generalizing u with
  | operand c =>
    obtain ⟨l, hl, rfl⟩ := reread?_operand_eq_some_iff.1 hu
    have sameLiteral : l.sameValue c.literal := by
      simpa [sameTree, Condition.sameCondition] using same
    intro d hd
    obtain rfl := List.mem_singleton.1 hd
    rw [Literal.Survives, hl, Literal.eq_of_sameValue_reread? (h d hd) hl sameLiteral]
  | operator k left right ihl ihr =>
    obtain ⟨hl, hr⟩ := forall_conditions_operator.1 h
    obtain ⟨l, r, hleft, hright, rfl⟩ := reread?_operator_eq_some_iff.1 hu
    obtain ⟨sameLeft, sameRight⟩ : l.sameTree left ∧ r.sameTree right := by
      simpa [sameTree] using same
    exact forall_conditions_operator.2 ⟨ihl hl hleft sameLeft, ihr hr hright sameRight⟩

end Tree

/-! ## Stored trees -/

namespace Exchange

open Token (eq_ok_of_toOption)

theorem lookedAt_toJson (t : Tree) : lookedAt t.toJson.document = t.toJson.document := by
  induction t with
  | operand c => rfl
  | operator k left right ihl ihr =>
    simp [Tree.toJson, Json.document, Json.documentMembers, lookedAt, lookedAtMembers, nodeKeys,
      ihl, ihr]

/-- A stored tree is read with its literals read again; a float that is read as one too large makes
the text malformed. -/
theorem treeOfText_toJson {t : Tree} (h : t.IsWritable) :
    treeOfText t.toJson.text = t.reread?.elim (.error .malformed) .ok := by
  have document := Tree.toJson?_document (Tree.isWritable_iff.1 h).1
  rw [treeOfText, readText, Json.ofText?_text]
  dsimp only
  rw [lookedAt_toJson, document]
  cases hu : t.reread? with
  | none => rfl
  | some u =>
    have read : tree .text u.toJson = .ok u := tree_toJson (Tree.isWritable_of_reread? h hu) .text
    rw [Option.map_some]
    dsimp only
    rw [read]
    rfl

/-- **Stored rules.** A compiled rule with finite floats comes back from its JSON text with each
literal read again. It comes back as an equal tree if and only if every literal survives that, and
literals with few digits do. -/
theorem treeOfText_stored {limits : Limits} {text : String} {t : Tree}
    (h : compile limits text = .ok t) (finite : ∀ c ∈ t.conditions, c.literal.IsFinite) :
    treeOfText t.toJson.text = t.reread?.elim (.error .malformed) .ok ∧
    ((∃ u, treeOfText t.toJson.text = .ok u ∧ u.sameTree t) ↔
      ∀ c ∈ t.conditions, c.literal.Survives) ∧
    ((∀ c ∈ t.conditions, c.literal.IsShort) → treeOfText t.toJson.text = .ok t) := by
  have writable := Tree.isWritable_iff.2 ⟨finite, mixesQuotes_of_compile h⟩
  have stored := treeOfText_toJson writable
  have kept : (∀ c ∈ t.conditions, c.literal.Survives) → treeOfText t.toJson.text = .ok t := by
    intro survives
    rw [stored, Tree.reread?_eq_self survives]
    rfl
  refine ⟨stored, ⟨?_, fun survives => ⟨t, kept survives, Tree.sameTree_self writable⟩⟩, ?_⟩
  · rintro ⟨u, hu, same⟩
    rw [stored] at hu
    cases hreread : t.reread? with
    | none =>
      rw [hreread] at hu
      cases hu
    | some v =>
      rw [hreread] at hu
      cases hu
      exact Tree.survives_of_sameTree finite hreread same
  · intro short
    exact kept fun c hc => Literal.survives_of_isShort (short c hc)

theorem treeOfText_stored_quarter :
    let t : Tree := .operator .or
      (.operator .and (.operand ⟨"rate", .gteq, .float (.signed true (.nearest 1 4))⟩)
        (.operand ⟨"n", .neq, .integer 7⟩)) (.operand ⟨"name", .eq, .string "a"⟩)
    compile {} "rate >= -0.25 AND n != 7 OR name = a" = .ok t ∧
      treeOfText t.toJson.text = .ok t := by
  intro t
  have compiled : compile {} "rate >= -0.25 AND n != 7 OR name = a" = .ok t :=
    eq_ok_of_toOption (by decide +kernel)
  have finite : ∀ c ∈ t.conditions, c.literal.IsFinite := by decide +kernel
  have short : ∀ c ∈ t.conditions, c.literal.IsShort := by decide +kernel
  exact ⟨compiled, (treeOfText_stored compiled finite).2.2 short⟩

/-- A rule that comes back as a different one: its float has 17 digits, which are rounded before the
power of ten is taken off. -/
theorem treeOfText_stored_differs :
    ∃ t u, compile {} "x = 123456789.123456789" = .ok t ∧
      (∀ c ∈ t.conditions, c.literal.IsFinite) ∧ treeOfText t.toJson.text = .ok u ∧
      u.sameTree t = false ∧
      ∃ record, t.evaluate record = .ok true ∧ u.evaluate record = .ok false := by
  let x : Binary64 := .signed false (.nearest 12345678912345679 100000000)
  let t : Tree := .operand ⟨"x", .eq, .float x⟩
  let u : Tree := .operand ⟨"x", .eq, .float (.signed false (.nearest 1234567891234568 10000000))⟩
  have compiled : compile {} "x = 123456789.123456789" = .ok t :=
    eq_ok_of_toOption (by decide +kernel)
  let record : Json := .object [("x", .number (.float x (by decide +kernel)))]
  have writable : t.IsWritable := by decide +kernel
  have reread : t.reread? = some u := by decide +kernel
  have stored : treeOfText t.toJson.text = .ok u := by
    rw [treeOfText_toJson writable, reread]
    rfl
  refine ⟨t, u, compiled, (Tree.isWritable_iff.1 writable).1, stored, by decide +kernel, record, ?_, ?_⟩
  · exact eq_ok_of_toOption (by decide +kernel)
  · exact eq_ok_of_toOption (by decide +kernel)

end Exchange

end RecordRules
