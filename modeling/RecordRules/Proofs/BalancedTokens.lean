import RecordRules.Token.Basic

/-!
# Balanced parentheses

The tokens between two places of a row, and how many parentheses a row leaves open. Main statements:
rows side by side add what they leave open, and a closing parenthesis takes one off.
-/

namespace RecordRules

namespace Parser

/-! ## Between two places -/

/-- `taken` is what stands between two places of the row. -/
def Between (ts : List Token) (p q : Nat) (taken : List Token) : Prop :=
  ts.drop p = taken ++ ts.drop q ∧ q = p + taken.length

section
variable {ts taken more : List Token} {p q v : Nat}

theorem between_nil (ts : List Token) (p : Nat) : Between ts p p [] := ⟨rfl, rfl⟩

theorem between_singleton {x : Token} (h : ts[p]? = some x) : Between ts p (p + 1) [x] := by
  obtain ⟨inside, rfl⟩ := List.getElem?_eq_some_iff.1 h
  exact ⟨List.drop_eq_getElem_cons inside, rfl⟩

theorem Between.append (h : Between ts p q taken) (h' : Between ts q v more) :
    Between ts p v (taken ++ more) := by
  obtain ⟨before, rfl⟩ := h
  obtain ⟨after, rfl⟩ := h'
  refine ⟨by rw [before, after, List.append_assoc], ?_⟩
  rw [List.length_append]
  omega

theorem Between.extract_eq (h : Between ts p q taken) : ts.extract p q = taken := by
  obtain ⟨split, rfl⟩ := h
  rw [List.extract_eq_take_drop, split, Nat.add_sub_cancel_left, List.take_left]

theorem Between.take_eq (h : Between ts p q taken) : ts.take q = ts.take p ++ taken := by
  obtain ⟨split, rfl⟩ := h
  rw [List.take_add, split, List.take_left]

theorem Between.le_length (h : Between ts p q taken) (hne : taken ≠ []) : q ≤ ts.length := by
  obtain ⟨split, rfl⟩ := h
  have parts := congrArg List.length split
  have positive := List.length_pos_iff.2 hne
  rw [List.length_drop, List.length_append, List.length_drop] at parts
  omega

end

/-! ## Open parentheses -/

def opens (ts : List Token) : Nat := ts.countP (·.kind = .openParen)

def closes (ts : List Token) : Nat := ts.countP (·.kind = .closeParen)

/-- No start of the row closes more parentheses than it opens, and `n` are left open at its end. -/
structure LeavesOpen (ts : List Token) (n : Nat) : Prop where
  start : ∀ k, closes (ts.take k) ≤ opens (ts.take k)
  left : opens ts = closes ts + n

abbrev Balanced (ts : List Token) : Prop := LeavesOpen ts 0

section
variable {ts us : List Token} {m n : Nat}

theorem opens_append (ts us : List Token) : opens (ts ++ us) = opens ts + opens us :=
  List.countP_append

theorem closes_append (ts us : List Token) : closes (ts ++ us) = closes ts + closes us :=
  List.countP_append

theorem LeavesOpen.append (h : LeavesOpen ts m) (h' : LeavesOpen us n) :
    LeavesOpen (ts ++ us) (m + n) where
  start := by
    intro k
    have first := h.start k
    have second := h'.start (k - ts.length)
    rw [List.take_append, opens_append, closes_append]
    omega
  left := by
    have first := h.left
    have second := h'.left
    rw [opens_append, closes_append]
    omega

theorem balanced_nil : Balanced [] := ⟨fun k => by simp [opens, closes], rfl⟩

theorem balanced_singleton {x : Token} (plain : x.kind ≠ .openParen ∧ x.kind ≠ .closeParen) :
    Balanced [x] where
  start := by
    intro k
    cases k <;> simp [opens, closes, plain]
  left := by simp [opens, closes, plain]

theorem leavesOpen_openParen (o : Nat) : LeavesOpen [⟨.openParen, o⟩] 1 where
  start := by
    intro k
    cases k <;> simp [opens, closes]
  left := rfl

theorem LeavesOpen.closeParen (h : LeavesOpen ts (n + 1)) (o : Nat) :
    LeavesOpen (ts ++ [⟨.closeParen, o⟩]) n where
  start := by
    intro k
    have inner := h.start k
    rw [List.take_append, opens_append, closes_append]
    by_cases whole : k ≤ ts.length
    · rw [Nat.sub_eq_zero_of_le whole]
      exact inner
    · have left := h.left
      rw [List.take_of_length_le (by omega)]
      have last : closes ([⟨.closeParen, o⟩].take (k - ts.length)) ≤ 1 :=
        Nat.le_trans List.countP_le_length (List.length_take_le' _ _)
      omega
  left := by
    have inner := h.left
    have last : opens [⟨.closeParen, o⟩] = 0 ∧ closes [⟨.closeParen, o⟩] = 1 := ⟨rfl, rfl⟩
    rw [opens_append, closes_append]
    omega

theorem LeavesOpen.group (h : Balanced ts) (o p : Nat) :
    Balanced ([⟨.openParen, o⟩] ++ ts ++ [⟨.closeParen, p⟩]) :=
  ((leavesOpen_openParen o).append h).closeParen p

end

end Parser

end RecordRules
