import Mathlib.Data.List.Basic

/-!
# Results that can be errors

How a result is taken apart: what a step of a computation had to give, and what a list of
computations gives, of which the first error counts.
-/

namespace RecordRules

variable {ε α β γ : Type}

/-! ## One step -/

@[simp] theorem throw_ne_ok {e : ε} {a : α} : (throw e : Except ε α) ≠ .ok a := by
  intro h
  cases h

@[simp] theorem pure_eq_ok_iff {a b : α} : (pure a : Except ε α) = .ok b ↔ a = b := by
  constructor
  · rintro ⟨⟩
    rfl
  · rintro rfl
    rfl

theorem exists_of_map_eq_ok {f : α → β} {x : Except ε α} {b : β} (h : f <$> x = .ok b) :
    ∃ a, x = .ok a ∧ f a = b := by
  cases x with
  | error e => cases h
  | ok a =>
    cases h
    exact ⟨a, rfl, rfl⟩

theorem map_eq_ok_iff {f : α → β} {x : Except ε α} {b : β} :
    f <$> x = .ok b ↔ ∃ a, x = .ok a ∧ f a = b := by
  refine ⟨exists_of_map_eq_ok, ?_⟩
  rintro ⟨a, rfl, rfl⟩
  rfl

theorem eq_error_of_map {f : α → β} {x : Except ε α} {e : ε} (h : f <$> x = .error e) :
    x = .error e := by
  cases x with
  | error e' =>
    cases h
    rfl
  | ok a => cases h

theorem exists_of_bind_eq_ok {f : α → Except ε β} {x : Except ε α} {b : β} (h : x >>= f = .ok b) :
    ∃ a, x = .ok a ∧ f a = .ok b := by
  cases x with
  | error e => cases h
  | ok a => exact ⟨a, rfl, h⟩

theorem bind_eq_ok_iff {f : α → Except ε β} {x : Except ε α} {b : β} :
    x >>= f = .ok b ↔ ∃ a, x = .ok a ∧ f a = .ok b := by
  refine ⟨exists_of_bind_eq_ok, ?_⟩
  rintro ⟨a, rfl, h⟩
  exact h

theorem eq_ok_of_mapError {ε' : Type} {f : ε → ε'} {x : Except ε α} {a : α}
    (h : x.mapError f = .ok a) : x = .ok a := by
  cases x with
  | error e => cases h
  | ok b =>
    cases h
    rfl

/-! ## One result after the other -/

theorem not_isOk_iff {r : Except ε α} : (!r.isOk) = true ↔ ∃ e, r = .error e := by
  cases r <;> simp [Except.isOk, Except.toBool]

theorem mapM_eq_ok_iff {f : α → Except ε β} {l : List α} {bs : List β} :
    l.mapM f = .ok bs ↔ l.map f = bs.map .ok := by
  induction l generalizing bs with
  | nil => cases bs <;> simp [pure, Except.pure]
  | cons a l ih =>
    rw [List.mapM_cons]
    cases ha : f a with
    | error e => cases bs <;> simp [ha, bind, Except.bind]
    | ok b =>
      cases bs with
      | nil => cases l.mapM f <;> simp [bind, Except.bind, pure, Except.pure]
      | cons c cs =>
        rw [List.map_cons, List.map_cons, List.cons.injEq, ha, ← ih]
        cases l.mapM f <;> simp [bind, Except.bind, pure, Except.pure]

/-- The first element without a result is the one whose error counts. -/
theorem mapM_eq_error_iff {f : α → Except ε β} {l : List α} {e : ε} :
    l.mapM f = .error e ↔ ∃ a, l.find? (fun a => !(f a).isOk) = some a ∧ f a = .error e := by
  induction l with
  | nil => simp [pure, Except.pure]
  | cons a l ih =>
    rw [List.mapM_cons]
    cases ha : f a with
    | error e' => simp [ha, Except.isOk, Except.toBool, bind, Except.bind]
    | ok b =>
      have passed : (!(f a).isOk) = false := by rw [ha]; rfl
      rw [List.find?_cons, passed, ← ih]
      cases l.mapM f <;> simp [bind, Except.bind, pure, Except.pure]

theorem exists_map_eq_ok_iff {f : α → Except ε β} {l : List α} :
    (∃ bs : List β, l.map f = bs.map .ok) ↔ ∀ a ∈ l, ∃ b, f a = .ok b := by
  constructor
  · rintro ⟨bs, h⟩ a ha
    obtain ⟨b, -, hb⟩ := List.mem_map.1 (h ▸ List.mem_map_of_mem ha)
    exact ⟨b, hb.symm⟩
  · intro h
    induction l with
    | nil => exact ⟨[], rfl⟩
    | cons a l ih =>
      obtain ⟨⟨b, hb⟩, rest⟩ := List.forall_mem_cons.1 h
      obtain ⟨bs, hbs⟩ := ih rest
      exact ⟨b :: bs, by rw [List.map_cons, List.map_cons, hb, hbs]⟩

/-- Computations that all have a result have the same results in another order. -/
theorem exists_perm_of_map_eq {f : α → Except ε β} {l l' : List α} (perm : l.Perm l') {bs : List β}
    (h : l.map f = bs.map .ok) : ∃ bs', bs.Perm bs' ∧ l'.map f = bs'.map .ok := by
  induction perm generalizing bs with
  | nil => exact ⟨bs, .refl bs, h⟩
  | cons a _ ih =>
    obtain ⟨b, bs, rfl, hb, rest⟩ := List.map_eq_cons_iff.1 h.symm
    obtain ⟨bs', perm', rest'⟩ := ih rest.symm
    exact ⟨b :: bs', perm'.cons b, by rw [List.map_cons, List.map_cons, hb, rest']⟩
  | swap a a' l =>
    obtain ⟨b', bs, rfl, hb', rest⟩ := List.map_eq_cons_iff.1 h.symm
    obtain ⟨b, bs, rfl, hb, rest⟩ := List.map_eq_cons_iff.1 rest
    exact ⟨b :: b' :: bs, .swap b b' bs, by simp [← hb, ← hb', rest]⟩
  | trans _ _ ih ih' =>
    obtain ⟨cs, perm, hcs⟩ := ih h
    obtain ⟨ds, perm', hds⟩ := ih' hcs
    exact ⟨ds, perm.trans perm', hds⟩

theorem find?_eq_none_of_mapM {f : α → Except ε β} {l : List α} {bs : List β}
    (h : l.mapM f = .ok bs) : l.find? (fun a => !(f a).isOk) = none := by
  cases hfind : l.find? (fun a => !(f a).isOk) with
  | none => rfl
  | some a =>
    have failed := List.find?_some hfind
    obtain ⟨e, ha⟩ := not_isOk_iff.1 failed
    rw [mapM_eq_error_iff.2 ⟨a, hfind, ha⟩] at h
    cases h

theorem mapM_bind {f : α → Except ε β} {l : List α} {bs : List β}
    (h : l.mapM f = .ok bs) (g : β → Except ε γ) : l.mapM (fun a => f a >>= g) = bs.mapM g := by
  rw [mapM_eq_ok_iff] at h
  induction l generalizing bs with
  | nil =>
    obtain rfl := List.map_eq_nil_iff.1 h.symm
    rfl
  | cons a l ih =>
    obtain ⟨b, cs, rfl, hb, hcs⟩ := List.map_eq_cons_iff.1 h.symm
    rw [List.mapM_cons, List.mapM_cons, ih hcs.symm, ← hb]
    rfl

end RecordRules
