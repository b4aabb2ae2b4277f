import RecordRules.NamedRule
import RecordRules.Proofs.ExchangeFormat
import RecordRules.Proofs.TextNumbers

/-!
# The literals of an imported tree

A tree comes in as a JSON value, as JSON text, or inside a stored rule. Whichever it is, each leaf
has a literal that can be written again, and an integer only where the input has this integer.
-/

namespace RecordRules

/-- One of the two children of an operator. -/
inductive Side
  | left
  | right
  deriving DecidableEq, Repr

namespace Tree

/-- The leaf at the end of a path from the root. -/
def leaf? : Tree → List Side → Option Condition
  | operand c, [] => some c
  | operator _ left _, .left :: path => left.leaf? path
  | operator _ _ right, .right :: path => right.leaf? path
  | _, _ => none

theorem mem_conditions_iff {t : Tree} {c : Condition} :
    c ∈ t.conditions ↔ ∃ path, t.leaf? path = some c := by
  constructor
  · intro h
    induction t with
    | operand d =>
      obtain rfl := List.mem_singleton.1 h
      exact ⟨[], rfl⟩
    | operator k left right ihl ihr =>
      rcases List.mem_append.1 h with h | h
      · obtain ⟨path, hpath⟩ := ihl h
        exact ⟨.left :: path, hpath⟩
      · obtain ⟨path, hpath⟩ := ihr h
        exact ⟨.right :: path, hpath⟩
  · rintro ⟨path, h⟩
    fun_induction leaf? t path with
    | case1 d =>
      cases h
      exact List.mem_singleton.2 rfl
    | case2 k left right path ih => exact List.mem_append_left _ (ih h)
    | case3 k left right path ih => exact List.mem_append_right _ (ih h)
    | case4 => cases h

end Tree

/-- What a leaf can hold for the part of the input that is its literal: a string without both kinds
of quote, a finite float, or the integer that the input gives. -/
def Literal.IsGivenBy (given : Json) : Literal → Prop
  | integer n => given = .number (.ofInt64 n)
  | float x => x.IsFinite
  | string s => ¬ ('\'' ∈ s.toList ∧ '"' ∈ s.toList)

namespace Exchange

open Json (Document valuesOf WritesInteger)

/-! ## Leaves of a node -/

/-- The name of the part of a node that is its child on a side. -/
def sideKey : Side → String
  | .left => "left"
  | .right => "right"

/-- The part of a node that is the literal of the leaf at the end of a path. -/
def literalPart? : List Side → Json → Option Json
  | [], j => (Format.accepted.part? nodeKeys j "value").bind
      (Format.accepted.part? conditionKeys · "literal")
  | side :: path, j => (Format.accepted.part? nodeKeys j (sideKey side)).bind (literalPart? path)

theorem DescribesLiteral.isGivenBy {j : Json} {l : Literal} (h : DescribesLiteral j l) :
    l.IsGivenBy j := by
  cases h with
  | integer n => rfl
  | @wide n low high wide => exact Json.Number.isFinite_toBinary64 (.integer n low high)
  | float finite => exact finite
  | string quotes => exact quotes

/-- Each leaf of a tree is described by the leaf of the node at the same place. -/
theorem Format.Describes.exists_literalPart {j : Json} {t : Tree}
    (h : Format.accepted.Describes j t) {path : List Side} {c : Condition}
    (leaf : t.leaf? path = some c) :
    ∃ l, literalPart? path j = some l ∧ DescribesLiteral l c.literal := by
  induction h generalizing path with
  | operand hkind word left right hvalue carries =>
    cases path with
    | nil =>
      cases leaf
      obtain ⟨l, hl, literal⟩ := carries.literal
      exact ⟨l, by simp only [literalPart?, hvalue, Option.bind_some, hl], literal⟩
    | cons side path => cases leaf
  | operator hkind word hvalue carries hleft _ hright _ ihl ihr =>
    rcases path with _ | ⟨_ | _, path⟩
    · cases leaf
    · obtain ⟨l, hl, literal⟩ := ihl leaf
      exact ⟨l, by simp only [literalPart?, sideKey, hleft, Option.bind_some, hl], literal⟩
    · obtain ⟨l, hl, literal⟩ := ihr leaf
      exact ⟨l, by simp only [literalPart?, sideKey, hright, Option.bind_some, hl], literal⟩

/-! ## Where a tree comes from -/

/-- A JSON value, the JSON text of a tree, or the JSON text of a named rule. -/
inductive Source
  | value (j : Json)
  | text (s : String)
  | rule (s : String)

def ruleKeys : List String := ["name", "ast"]

namespace Source

def read : Source → Except Fault Tree
  | value j => treeOfValue j
  | text s => treeOfText s
  | rule s => NamedRule.tree <$> NamedRule.ofText s

def text? : Source → Option String
  | value _ => none
  | text s | rule s => some s

/-- The node that is read as the tree, without what a reader of text skips. -/
def node? : Source → Option Json
  | value j => some j
  | text s => (Document.ofText? s).bind fun d => (lookedAt d).toJson?
  | rule s => (Document.ofText? s).bind fun d =>
    (NamedRule.lookedAt d).toJson?.bind (Format.accepted.part? ruleKeys · "ast")

end Source

theorem exists_of_readText {α : Type} {keep : Document → Document} {decode : Json → Except Fault α}
    {text : String} {a : α} (h : readText keep decode text = .ok a) :
    ∃ d j, Document.ofText? text = some d ∧ (keep d).toJson? = some j ∧ decode j = .ok a := by
  unfold readText at h
  split at h
  · cases h
  · rename_i d hd
    split at h
    · cases h
    · rename_i j hj
      split at h
      · rename_i b hb
        cases h
        exact ⟨d, j, hd, hj, hb⟩
      · cases h

theorem describes_of_tree {j : Json} {t : Tree} (h : tree .text j = .ok t) :
    Format.accepted.Describes j t := by
  -- What describes a tree is said of values; a text gives no tree that its value does not give.
  obtain ⟨shape, hchild, hshape⟩ := tree_eq_ok_iff.1 h
  exact treeOfValue_eq_ok_iff.1 (tree_eq_ok_iff.2 ⟨shape, child_sorted j hchild, hshape⟩)

/-- The tree of a rule fills its slot once. -/
theorem fills_of_ofMembers {name : Option (Option String)} {slot : Option Tree}
    {ms : List (String × Json)} {r : NamedRule} (h : NamedRule.ofMembers name slot ms = .ok r) :
    Fills (tree .text) slot (valuesOf "ast" ms) (some r.tree) := by
  induction ms generalizing name slot with
  | nil =>
    unfold NamedRule.ofMembers at h
    split at h
    · cases h
      exact .nothing _
    · cases h
  | cons m ms ih =>
    obtain ⟨key, j⟩ := m
    unfold NamedRule.ofMembers at h
    rw [Json.valuesOf_cons]
    split at h
    · rename_i hname
      obtain ⟨name', -, h⟩ := exists_of_bind_eq_ok h
      rw [if_neg (by simp [hname])]
      exact ih h
    split at h
    · rename_i hast
      obtain ⟨t, ht, h⟩ := exists_of_bind_eq_ok h
      rw [if_pos hast]
      exact (fills_cons_iff key).2 ⟨t, ht, ih h⟩
    · rename_i other
      rw [if_neg other]
      exact ih h

theorem exists_ast_of_ofJson {j : Json} {r : NamedRule} (h : NamedRule.ofJson j = .ok r) :
    ∃ ast, Format.accepted.part? ruleKeys j "ast" = some ast ∧ tree .text ast = .ok r.tree := by
  unfold NamedRule.ofJson at h
  split at h
  · rename_i ms
    have filled := fills_of_ofMembers h
    generalize hast : valuesOf "ast" ms = values at filled
    cases filled with
    | @first ast _ read =>
      rw [part?_object, Json.field?_object, hast]
      exact ⟨ast, rfl, read⟩
  · cases h
  · obtain ⟨name, -, h⟩ := exists_of_bind_eq_ok h
    split at h
    · cases h
    · obtain ⟨t, ht, h⟩ := exists_of_bind_eq_ok h
      split at h
      · rename_i rest last
        cases h
        obtain rfl := List.isEmpty_iff.1 last
        exact ⟨_, rfl, ht⟩
      · cases h
  · cases h

theorem Source.exists_node {source : Source} {t : Tree} (h : source.read = .ok t) :
    ∃ j, source.node? = some j ∧ Format.accepted.Describes j t := by
  cases source with
  | value j => exact ⟨j, rfl, treeOfValue_eq_ok_iff.1 h⟩
  | text s =>
    obtain ⟨d, j, hd, hj, read⟩ := exists_of_readText h
    refine ⟨j, ?_, describes_of_tree read⟩
    simp only [node?, hd, Option.bind_some, hj]
  | rule s =>
    unfold read at h
    obtain ⟨r, hr, rfl⟩ := exists_of_map_eq_ok h
    obtain ⟨d, j, hd, hj, read⟩ := exists_of_readText hr
    obtain ⟨ast, hast, read⟩ := exists_ast_of_ofJson read
    refine ⟨ast, ?_, describes_of_tree read⟩
    simp only [node?, hd, Option.bind_some, hj, hast]

/-! ## Numbers of the input -/

theorem mem_of_lookup {β : Type} {key : String} {l : List (String × β)} {b : β}
    (h : l.lookup key = some b) : (key, b) ∈ l := by
  obtain ⟨before, after, rfl, -⟩ := List.lookup_eq_some_iff.1 h
  exact List.mem_append_right before List.mem_cons_self

theorem exists_item_of_toJson? {ds : List Document} {js : List Json}
    (h : Document.itemsToJson? ds = some js) {j : Json} (mem : j ∈ js) :
    ∃ d ∈ ds, d.toJson? = some j := by
  induction ds generalizing js with
  | nil =>
    cases h
    cases mem
  | cons d ds ih =>
    obtain ⟨first, rest, hd, hds, rfl⟩ := itemsToJson?_cons_eq_some_iff.1 h
    rcases List.mem_cons.1 mem with rfl | mem
    · exact ⟨d, List.mem_cons_self, hd⟩
    · obtain ⟨d', hd', read⟩ := ih hds mem
      exact ⟨d', List.mem_cons_of_mem d hd', read⟩

theorem itemsToJson?_of_membersToJson? {ds : List (Option String × Document)}
    {ms : List (String × Json)} (h : Document.membersToJson? ds = some ms) :
    Document.itemsToJson? (ds.map (·.2)) = some (ms.map (·.2)) := by
  induction ds generalizing ms with
  | nil =>
    cases h
    rfl
  | cons d ds ih =>
    obtain ⟨key, j, rest, -, hd, hds, rfl⟩ := membersToJson?_cons_eq_some_iff.1 h
    exact itemsToJson?_cons_eq_some_iff.2 ⟨j, _, hd, ih hds, rfl⟩

/-- A value that is read from a part of a document, or from a document that has no other numbers. -/
def IsReadFrom (j : Json) (d : Document) : Prop :=
  ∃ d' : Document, d'.toJson? = some j ∧ ∀ n, d'.HasNumber n → d.HasNumber n

theorem IsReadFrom.hasNumber {n : Json.Number} {d : Document} (h : IsReadFrom (.number n) d) :
    d.HasNumber n := by
  obtain ⟨d', read, inner⟩ := h
  apply inner
  cases d' with
  | number value =>
    obtain ⟨m, rfl, same⟩ := Option.map_eq_some_iff.1 read
    cases same
    exact .number
  | null | bool _ => cases read
  | string _ | array _ | object _ =>
    obtain ⟨_, -, same⟩ := Option.map_eq_some_iff.1 read
    cases same

theorem IsReadFrom.part? {j part : Json} {d : Document} (h : IsReadFrom j d) {f : Format}
    {names : List String} {name : String} (hpart : f.part? names j name = some part) :
    IsReadFrom part d := by
  obtain ⟨d', read, inner⟩ := h
  cases d' with
  | array ds =>
    obtain ⟨js, hjs, rfl⟩ := Option.map_eq_some_iff.1 read
    unfold Format.part? at hpart
    dsimp only at hpart
    obtain ⟨-, hpart⟩ := Option.ite_none_right_eq_some.1 hpart
    have item := (List.of_mem_zip (mem_of_lookup hpart)).2
    obtain ⟨d'', mem, read⟩ := exists_item_of_toJson? hjs item
    exact ⟨d'', read, fun n hn => inner n (.item mem hn)⟩
  | object ds =>
    obtain ⟨ms, hms, rfl⟩ := Option.map_eq_some_iff.1 read
    have member := List.mem_reverse.1 (mem_of_lookup hpart)
    have value := List.mem_map_of_mem (f := (·.2)) member
    obtain ⟨d'', item, read⟩ := exists_item_of_toJson? (itemsToJson?_of_membersToJson? hms) value
    obtain ⟨m, mem, rfl⟩ := List.mem_map.1 item
    exact ⟨m.2, read, fun n hn => inner n (.member mem hn)⟩
  | null | bool _ =>
    cases read
    cases hpart
  | number _ | string _ =>
    obtain ⟨_, -, rfl⟩ := Option.map_eq_some_iff.1 read
    cases hpart

theorem IsReadFrom.literalPart? {path : List Side} {d : Document} {j l : Json}
    (h : IsReadFrom j d) (hl : literalPart? path j = some l) : IsReadFrom l d := by
  induction path generalizing j with
  | nil =>
    obtain ⟨value, hvalue, hl⟩ := Option.bind_eq_some_iff.1 hl
    exact (h.part? hvalue).part? hl
  | cons side path ih =>
    obtain ⟨child, hchild, hl⟩ := Option.bind_eq_some_iff.1 hl
    exact ih (h.part? hchild) hl

section
variable {n : Json.Number}

mutual

theorem hasNumber_of_lookedAt : ∀ d : Document, (lookedAt d).HasNumber n → d.HasNumber n
  | .null, h | .bool _, h | .number _, h | .string _, h | .array [], h => h
  | .array (kind :: rest), h => by
    rw [lookedAt, Document.hasNumber_array, List.exists_mem_cons_iff] at h
    rw [Document.hasNumber_array, List.exists_mem_cons_iff]
    exact h.imp_right (exists_hasNumber_of_lookedAtItems rest)
  | .object members, h => by
    rw [lookedAt, Document.hasNumber_object] at h
    exact Document.hasNumber_object.2 (exists_hasNumber_of_lookedAtMembers members h)

theorem exists_hasNumber_of_lookedAtMembers : ∀ ds : List (Option String × Document),
    (∃ m ∈ lookedAtMembers ds, m.2.HasNumber n) → ∃ m ∈ ds, m.2.HasNumber n
  | [], h => h
  | (none, d) :: rest, h => by
    rw [lookedAtMembers, List.exists_mem_cons_iff] at h
    rw [List.exists_mem_cons_iff]
    exact h.imp_right (exists_hasNumber_of_lookedAtMembers rest)
  | (some key, d) :: rest, h => by
    have tail := exists_hasNumber_of_lookedAtMembers rest
    rw [List.exists_mem_cons_iff]
    unfold lookedAtMembers at h
    -- A child is looked at in its turn, another member of a node is kept, all else is left out.
    split at h
    · rw [List.exists_mem_cons_iff] at h
      exact h.imp (hasNumber_of_lookedAt d) tail
    split at h
    · rw [List.exists_mem_cons_iff] at h
      exact h.imp_right tail
    · exact .inr (tail h)

theorem exists_hasNumber_of_lookedAtItems : ∀ ds : List Document,
    (∃ d ∈ lookedAtItems ds, d.HasNumber n) → ∃ d ∈ ds, d.HasNumber n
  | [], h => h
  | [left], h => by
    simp only [lookedAtItems, List.exists_mem_cons_iff] at h ⊢
    exact h.imp_left (hasNumber_of_lookedAt left)
  | left :: right :: rest, h => by
    simp only [lookedAtItems, List.exists_mem_cons_iff] at h ⊢
    exact h.imp (hasNumber_of_lookedAt left) (Or.imp_left (hasNumber_of_lookedAt right))

end

theorem hasNumber_of_ruleLookedAt {d : Document} (h : (NamedRule.lookedAt d).HasNumber n) :
    d.HasNumber n := by
  unfold NamedRule.lookedAt at h
  split at h
  · obtain ⟨m, hm, hn⟩ := Document.hasNumber_object.1 h
    obtain ⟨⟨key, d⟩, mem, kept⟩ := List.mem_filterMap.1 hm
    refine .member mem ?_
    cases key with
    | none =>
      cases kept
      exact hn
    | some key =>
      dsimp only at kept
      split at kept
      · cases kept
        exact hasNumber_of_lookedAt d hn
      · obtain ⟨-, kept⟩ := Option.ite_none_right_eq_some.1 kept
        cases kept
        exact hn
  · rename_i ast rest
    simp only [Document.hasNumber_array, List.exists_mem_cons_iff] at h ⊢
    exact h.imp_right (Or.imp_left (hasNumber_of_lookedAt ast))
  · exact h

end

/-- What is read as the tree is read from the document of the text. -/
theorem Source.exists_document {source : Source} {j : Json} {s : String}
    (hj : source.node? = some j) (hs : source.text? = some s) :
    ∃ d, Document.ofText? s = some d ∧ IsReadFrom j d := by
  cases source with
  | value j => cases hs
  | text s =>
    cases hs
    obtain ⟨d, hd, read⟩ := Option.bind_eq_some_iff.1 hj
    exact ⟨d, hd, lookedAt d, read, fun n => hasNumber_of_lookedAt d⟩
  | rule s =>
    cases hs
    obtain ⟨d, hd, hj⟩ := Option.bind_eq_some_iff.1 hj
    obtain ⟨rule, read, hj⟩ := Option.bind_eq_some_iff.1 hj
    have whole : IsReadFrom rule d :=
      ⟨NamedRule.lookedAt d, read, fun n => hasNumber_of_ruleLookedAt⟩
    exact ⟨d, hd, whole.part? hj⟩

/-! ## Trees -/

/-- **Import.** At each leaf of a tree that is read, a string does not hold both kinds of quote, a
float is finite, and an integer is the number that the input has there; where the input is a text,
this integer is written in it. Written as a value, the tree is read again as it is. -/
theorem Source.literals_of_read {source : Source} {t : Tree} (h : source.read = .ok t) :
    (∃ j, source.node? = some j ∧ ∀ path c, t.leaf? path = some c →
      ∃ given, literalPart? path j = some given ∧ c.literal.IsGivenBy given) ∧
    (∀ s ∈ source.text?, ∀ c ∈ t.conditions, ∀ n, c.literal = .integer n →
      WritesInteger s n.toInt) ∧
    treeOfValue t.toJson = .ok t ∧ t.sameTree t := by
  obtain ⟨j, hj, describes⟩ := exists_node h
  refine ⟨⟨j, hj, fun path c leaf => ?_⟩, fun s hs c hc n hn => ?_, ?_⟩
  · obtain ⟨given, hgiven, literal⟩ := describes.exists_literalPart leaf
    exact ⟨given, hgiven, literal.isGivenBy⟩
  · obtain ⟨path, leaf⟩ := Tree.mem_conditions_iff.1 hc
    obtain ⟨given, hgiven, literal⟩ := describes.exists_literalPart leaf
    obtain ⟨d, hd, read⟩ := exists_document hj hs
    have same := literal.isGivenBy
    rw [hn] at same
    obtain rfl := same
    exact Json.writesInteger_of_ofText? hd (read.literalPart? hgiven).hasNumber
  · have writable := isWritable_of_tree (treeOfValue_eq_ok_iff.2 describes)
    exact ⟨tree_toJson writable .value, Tree.sameTree_self writable⟩

/-- The same whole number as an integer and with a point, and a string with one kind of quote, in a
rule that is written as an array and has no name. -/
theorem Source.literals_of_read_numbers :
    let leaf (literal : String) := "[\"operand\",null,null,[\"a\",\"eq\"," ++ literal ++ "]]"
    let text := "[null,[\"operator\",[\"operator\"," ++ leaf "-30" ++ "," ++ leaf "-30.0" ++
      ",\"OR\"]," ++ leaf "\"it's\"" ++ ",\"AND\"]]"
    let t : Tree := .operator .and (.operator .or (.operand ⟨"a", .eq, .integer (-30)⟩)
      (.operand ⟨"a", .eq, .float (.ofInt (-30))⟩)) (.operand ⟨"a", .eq, .string "it's"⟩)
    Source.read (.rule text) = .ok t ∧ WritesInteger text (-30) ∧
      treeOfValue t.toJson = .ok t ∧ t.sameTree t := by
  intro leaf text t
  have read : Source.read (.rule text) = .ok t := Token.eq_ok_of_toOption (by decide +kernel)
  obtain ⟨-, integers, again⟩ := literals_of_read read
  have first : ⟨"a", .eq, .integer (-30)⟩ ∈ t.conditions := by simp [t, Tree.conditions]
  exact ⟨read, integers text rfl _ first (-30) rfl, again⟩

end Exchange

end RecordRules
