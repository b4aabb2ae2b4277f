import Mathlib.Data.List.Forall2
import RecordRules.Proofs.Majority

/-!
# Results under one combinator

A tree whose operators are all of one kind says of a record what its conditions say one after the
other: whether all of them are met, or any, or else the first error. So it does not matter how they
are grouped, nor which of two equal conditions stands in a place.
-/

namespace RecordRules

namespace Combinator

variable {α β ε : Type} {k : Combinator} {f : α → Except ε Bool} {l l' : List α}

/-! ## A list of results -/

/-- All elements have a property, or any. -/
def Over (k : Combinator) (P : α → Prop) (l : List α) : Prop :=
  match k with
  | and => ∀ a ∈ l, P a
  | or => ∃ a ∈ l, P a

def together : Combinator → List Bool → Bool
  | and, bs => bs.all id
  | or, bs => bs.any id

/-- The results of a list under one combinator, or its first error. -/
def overall (k : Combinator) (f : α → Except ε Bool) (l : List α) : Except ε Bool :=
  k.together <$> l.mapM f

theorem over_perm {P : α → Prop} (perm : l.Perm l') : k.Over P l ↔ k.Over P l' := by
  cases k with
  | and => simp [Over, perm.mem_iff]
  | or => simp [Over, perm.mem_iff]

theorem over_map {g : α → β} {P : β → Prop} :
    k.Over P (l.map g) ↔ k.Over (fun a => P (g a)) l := by
  cases k with
  | and => simp [Over]
  | or => simp [Over]

theorem together_eq_true_iff {bs : List Bool} :
    k.together bs = true ↔ k.Over (· = true) bs := by
  cases k with
  | and => simp [together, Over]
  | or => simp [together, Over]

theorem together_append (k : Combinator) (bs cs : List Bool) :
    k.together (bs ++ cs) = k.apply (k.together bs) (k.together cs) := by
  cases k with
  | and => exact List.all_append
  | or => exact List.any_append

theorem overall_singleton (k : Combinator) (f : α → Except ε Bool) (a : α) :
    k.overall f [a] = f a := by
  rw [overall, List.mapM_cons, List.mapM_nil]
  cases f a with
  | error e => rfl
  | ok b => cases k <;> cases b <;> rfl

theorem overall_append (k : Combinator) (f : α → Except ε Bool) (l l' : List α) :
    k.overall f (l ++ l') = (do
      let left ← k.overall f l
      let right ← k.overall f l'
      return k.apply left right) := by
  unfold overall
  rw [List.mapM_append]
  cases l.mapM f with
  | error e => rfl
  | ok bs =>
    cases l'.mapM f with
    | error e => rfl
    | ok cs => exact congrArg Except.ok (k.together_append bs cs)

theorem overall_congr (h : List.Forall₂ (fun a b => f a = f b) l l') :
    k.overall f l = k.overall f l' := by
  have results : l.mapM f = l'.mapM f := by
    induction h with
    | nil => rfl
    | cons head _ ih => rw [List.mapM_cons, List.mapM_cons, head, ih]
  rw [overall, overall, results]

theorem overall_eq_error_iff {e : ε} : k.overall f l = .error e ↔
    ∃ a, l.find? (fun a => !(f a).isOk) = some a ∧ f a = .error e := by
  rw [← mapM_eq_error_iff, overall]
  cases l.mapM f <;> simp [Functor.map, Except.map]

theorem overall_of_map_eq {bs : List Bool} (h : l.map f = bs.map .ok) :
    k.overall f l = .ok (k.together bs) := by
  rw [overall, mapM_eq_ok_iff.2 h]
  rfl

theorem overall_eq_true_iff (h : ∀ a ∈ l, ∃ b, f a = .ok b) :
    k.overall f l = .ok true ↔ k.Over (f · = .ok true) l := by
  obtain ⟨bs, hbs⟩ := exists_map_eq_ok_iff.2 h
  have results : k.Over (f · = .ok true) l ↔ k.Over (· = true) bs := by
    rw [← over_map (g := f) (P := (· = .ok true)), hbs, over_map]
    simp only [Except.ok.injEq]
  rw [overall_of_map_eq hbs, results, Except.ok.injEq, together_eq_true_iff]

/-- Without errors the order does not matter. -/
theorem overall_perm (perm : l.Perm l') (h : ∀ a ∈ l, ∃ b, f a = .ok b) :
    k.overall f l = k.overall f l' := by
  obtain ⟨bs, hbs⟩ := exists_map_eq_ok_iff.2 h
  obtain ⟨bs', perm', hbs'⟩ := exists_perm_of_map_eq perm hbs
  rw [overall_of_map_eq hbs, overall_of_map_eq hbs', Except.ok.injEq, Bool.eq_iff_iff,
    together_eq_true_iff, together_eq_true_iff, over_perm perm']

end Combinator

/-! ## Conditions that are equal as values -/

theorem Binary64.compare?_congr {x y : Binary64} (same : x.sameNumber y) (z : Binary64) :
    z.compare? x = z.compare? y := by
  cases x with
  | nan => cases same
  | signed s m =>
    cases y with
    | nan => cases same
    | signed t n =>
      have places := sameNumber_signed_iff.1 same
      cases z with
      | nan => rfl
      | signed u o => rw [compare?, compare?, places]

theorem Literal.compare?_congr {l m : Literal} (same : l.sameValue m) (value : Json) :
    l.compare? value = m.compare? value ∧ l.typeName = m.typeName := by
  cases l with
  | integer n =>
    cases m with
    | integer n' =>
      obtain rfl : n = n' := eq_of_beq same
      exact ⟨rfl, rfl⟩
    | _ => cases same
  | float x =>
    cases m with
    | float y =>
      cases value with
      | number n =>
        have orders (z : Binary64) : z.compare? x = z.compare? y := Binary64.compare?_congr same z
        simp only [compare?, orders, typeName, and_self]
      | _ => exact ⟨rfl, rfl⟩
    | _ => cases same
  | string s =>
    cases m with
    | string s' =>
      obtain rfl : s = s' := eq_of_beq same
      exact ⟨rfl, rfl⟩
    | _ => cases same

theorem Condition.evaluateOn_congr {c d : Condition} (same : c.sameCondition d) (record : Json) :
    c.evaluateOn record = d.evaluateOn record := by
  obtain ⟨field, k, l⟩ := c
  obtain ⟨field', k', m⟩ := d
  simp only [sameCondition, Bool.and_eq_true, beq_iff_eq] at same
  obtain ⟨⟨rfl, rfl⟩, literals⟩ := same
  unfold evaluateOn evaluate
  cases record.field? field with
  | none => rfl
  | some value =>
    obtain ⟨order, name⟩ := Literal.compare?_congr literals value
    dsimp only
    rw [order, name]

/-! ## Trees -/

namespace Tree

theorem evaluate_eq_overall {k : Combinator} {t : Tree} (h : ∀ kind ∈ t.combinators, kind = k)
    (record : Json) : t.evaluate record = k.overall (·.evaluateOn record) t.conditions := by
  induction t with
  | operand c =>
    rw [conditions, Combinator.overall_singleton]
    rfl
  -- Both sides are evaluated before they are joined, so errors come in the order of the conditions.
  | operator kind left right ihl ihr =>
    simp only [combinators, List.mem_append, List.mem_cons] at h
    obtain rfl : kind = k := h kind (.inr (.inl rfl))
    rw [evaluate, ihl fun _ mem => h _ (.inl mem), ihr fun _ mem => h _ (.inr (.inr mem)),
      conditions, Combinator.overall_append]

/-- **Regrouping.** Two trees with equal conditions from left to right, and with operators of one
kind only, say the same of every record, also where they have an error. -/
theorem evaluate_regrouped {t u : Tree}
    (same : List.Forall₂ (fun c d => c = d ∨ c.sameCondition d) t.conditions u.conditions)
    {k : Combinator} (ht : ∀ kind ∈ t.combinators, kind = k) (hu : ∀ kind ∈ u.combinators, kind = k)
    (record : Json) : t.evaluate record = u.evaluate record := by
  rw [evaluate_eq_overall ht, evaluate_eq_overall hu]
  refine Combinator.overall_congr (same.imp fun c d equal => ?_)
  rcases equal with rfl | values
  · rfl
  · exact Condition.evaluateOn_congr values record

/-- A chain to the left and one to the right, with a zero of either sign, on a record that has none
of two fields. -/
theorem evaluate_regrouped_chains :
    let a (negative : Bool) : Tree := .operand ⟨"a", .gt, .float (.signed negative (.ofNat 0))⟩
    let b : Tree := .operand ⟨"b", .eq, .string "x"⟩
    let c : Tree := .operand ⟨"c", .lt, .integer 5⟩
    let record : Json := .object [("a", .number (.ofInt64 3))]
    let left : Tree := .operator .or (.operator .or (a false) b) c
    let right : Tree := .operator .or (a true) (.operator .or b c)
    left.evaluate record = right.evaluate record ∧
      right.evaluate record = .error (.fieldNotFound "b") := by
  intro a b c record left right
  have zeros : Condition.sameCondition ⟨"a", .gt, .float (.signed false (.ofNat 0))⟩
      ⟨"a", .gt, .float (.signed true (.ofNat 0))⟩ := by decide +kernel
  have equal : List.Forall₂ (fun c d => c = d ∨ c.sameCondition d) left.conditions
      right.conditions := .cons (.inr zeros) (.cons (.inl rfl) (.cons (.inl rfl) .nil))
  have onlyOr : ∀ kind ∈ left.combinators, kind = .or := by decide
  have onlyOr' : ∀ kind ∈ right.combinators, kind = .or := by decide
  exact ⟨evaluate_regrouped equal onlyOr onlyOr' record, by decide +kernel⟩

end Tree

end RecordRules
