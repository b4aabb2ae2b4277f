import RecordRules.Proofs.BalancedTokens
import RecordRules.Proofs.Descent

/-!
# Calls of the parser by descent

Which tokens a call takes, and what becomes of the count of open parentheses. Main statements: every
call ends, one that succeeds has taken balanced tokens, three at least unless it looks for more
terms, and has put the count back; and where an expression starts the count is the number of open
parentheses.
-/

namespace RecordRules

namespace Parser

namespace Descent

/-! ## What a call takes -/

/-- The cursor has moved over these tokens, their parentheses are balanced, and the count is what it
was. -/
structure Passes (ts : List Token) (c c' : Cursor) (taken : List Token) : Prop where
  between : Between ts c.pos c'.pos taken
  depth : c'.depth = c.depth
  balanced : Balanced taken

/-- How many tokens a call takes at least. -/
def Call.least : Call → Nat
  | .term | .expression => 3
  | .joined _ => 0

section
variable {limit : UInt64} {ts taken more : List Token} {c c' : Cursor} {s u s' : State}

theorem passes_nil (ts : List Token) (c : Cursor) : Passes ts c c [] :=
  ⟨between_nil ts c.pos, rfl, balanced_nil⟩

theorem Passes.append {d : Cursor} (h : Passes ts c d taken) (h' : Passes ts d c' more) :
    Passes ts c c' (taken ++ more) :=
  ⟨h.between.append h'.between, h'.depth.trans h.depth, h.balanced.append h'.balanced⟩

theorem passes_skipped {x : Token} (h : ts[s.pos]? = some x)
    (plain : x.kind ≠ .openParen ∧ x.kind ≠ .closeParen) :
    Passes ts s.toCursor s.skipped.toCursor [x] :=
  ⟨between_singleton h, rfl, balanced_singleton plain⟩

theorem passes_group {o p : Nat} (opens : ts[s.pos]? = some ⟨.openParen, o⟩)
    (inner : Passes ts s.opened.toCursor u.toCursor taken)
    (closes : ts[u.pos]? = some ⟨.closeParen, p⟩) :
    Passes ts s.toCursor u.skipped.closed.toCursor
      ([⟨.openParen, o⟩] ++ taken ++ [⟨.closeParen, p⟩]) where
  between := ((between_singleton opens).append inner.between).append (between_singleton closes)
  depth := by
    show u.depth - 1 = s.depth
    rw [inner.depth]
    exact UInt64.add_sub_cancel s.depth 1
  balanced := inner.balanced.group o p

theorem Leaf.passes {t : Tree} (h : Leaf ts s (.ok t) s') :
    ∃ taken, Passes ts s.toCursor s'.toCursor taken ∧ 3 ≤ taken.length := by
  cases h with
  | condition name c o p q field sign value literal =>
    have first := passes_skipped field ⟨by simp, by simp⟩
    have second := passes_skipped sign ⟨by simp, by simp⟩
    have third := passes_skipped value (by cases literal <;> simp)
    exact ⟨_, (first.append second).append third, Nat.le_refl 3⟩

theorem Evaluates.passes {call : Call} {n : Nat} {r : Except ParseError Tree}
    (h : Evaluates limit ts call n s r s') {t : Tree} (ok : r = .ok t) :
    ∃ taken, Passes ts s.toCursor s'.toCursor taken ∧ call.least ≤ taken.length := by
  induction h generalizing t with
  | leaf bare condition =>
    subst ok
    exact condition.passes
  | tooDeep | groupFails | endless | unclosed | firstFails | unsupported | rightFails => cases ok
  | group opens fits _ closes inner =>
    obtain ⟨taken, passes, least⟩ := inner rfl
    refine ⟨_, passes_group opens passes closes, ?_⟩
    exact Nat.le_trans least (by simp; omega)
  | first _ _ first others =>
    obtain ⟨taken, passes, least⟩ := first rfl
    obtain ⟨more, passes', -⟩ := others ok
    exact ⟨taken ++ more, passes.append passes', Nat.le_trans least (by simp)⟩
  | @last n s t' ends => exact ⟨[], passes_nil ts s.toCursor, Nat.le_refl 0⟩
  | more t' k joins _ _ right others =>
    have sign := passes_skipped joins ⟨by simp, by simp⟩
    obtain ⟨taken, passes, -⟩ := right rfl
    obtain ⟨more, passes', -⟩ := others ok
    exact ⟨_, (sign.append passes).append passes', Nat.zero_le _⟩

theorem Evaluates.pos_lt {call : Call} {n : Nat} {t : Tree}
    (h : Evaluates limit ts call n s (.ok t) s') (more : call.least = 3) :
    s.pos + 3 ≤ s'.pos ∧ s'.pos ≤ ts.length := by
  obtain ⟨taken, passes, least⟩ := h.passes rfl
  have hne : taken ≠ [] := by
    rintro rfl
    rw [more] at least
    cases least
  refine ⟨?_, passes.between.le_length hne⟩
  rw [passes.between.2]
  omega

end

/-! ## Calls end -/

section
variable {limit : UInt64} {ts : List Token} {s : State}

/-- The call ends in this state, inside of however many others. -/
def Answers (limit : UInt64) (ts : List Token) (call : Call) (s : State) : Prop :=
  ∀ n, ∃ r s', Evaluates limit ts call n s r s'

theorem inside_of_getElem? {x : Token} (h : ts[s.pos]? = some x) : s.pos < ts.length :=
  (List.getElem?_eq_some_iff.1 h).1

theorem answers_term (inner : s.pos < ts.length → Answers limit ts .expression s.opened) :
    Answers limit ts .term s := by
  intro n
  by_cases group : ∃ o, ts[s.pos]? = some ⟨.openParen, o⟩
  · obtain ⟨o, opens⟩ := group
    by_cases fits : s.depth + 1 ≤ limit
    · obtain ⟨r, u, inner⟩ := inner (inside_of_getElem? opens) (n + 1)
      cases r with
      | error e => exact ⟨_, _, .groupFails opens fits inner⟩
      | ok t =>
        cases found : ts[u.pos]? with
        | none => exact ⟨_, _, .endless opens fits inner found⟩
        | some x =>
          by_cases closes : x.kind = .closeParen
          · obtain ⟨kind, p⟩ := x
            subst closes
            exact ⟨_, _, .group opens fits inner found⟩
          · exact ⟨_, _, .unclosed opens fits inner found closes⟩
    · exact ⟨_, _, .tooDeep opens (UInt64.not_le.1 fits)⟩
  · obtain ⟨r, s', leaf⟩ := exists_leaf ts s
    exact ⟨r, s', .leaf (not_exists.1 group) leaf⟩

theorem answers_joined (right : s.pos < ts.length → Answers limit ts .term s.skipped)
    (others : ∀ u : State, s.pos < u.pos → u.pos ≤ ts.length →
      ∀ t, Answers limit ts (.joined t) u)
    (t : Tree) : Answers limit ts (.joined t) s := by
  intro n
  cases found : ts[s.pos]? with
  | none => exact ⟨_, _, .last t (by simp [EndsGroup, found])⟩
  | some x =>
    obtain ⟨kind, o⟩ := x
    by_cases joins : ∃ k, kind = .combinator k
    · obtain ⟨k, rfl⟩ := joins
      obtain ⟨r, u, taken⟩ := right (inside_of_getElem? found) n
      cases r with
      | error e => exact ⟨_, _, .rightFails t k found taken⟩
      | ok r =>
        obtain ⟨further, inside⟩ := taken.pos_lt rfl
        have behind : s.pos < u.pos := by
          have : s.skipped.pos = s.pos + 1 := rfl
          omega
        obtain ⟨result, s', others⟩ := others u behind inside (.operator k t r) n
        exact ⟨result, s', .more t k found taken others⟩
    · by_cases sign : kind = .doubleAmpersand ∨ kind = .doubleBar
      · exact ⟨_, _, .unsupported t found sign⟩
      · have ends : EndsGroup ts[s.pos]? := by
          rw [found]
          rintro x ⟨⟩
          exact ⟨not_exists.1 joins, not_or.1 sign⟩
        exact ⟨_, _, .last t ends⟩

theorem answers_expression (first : ∀ n, Answers limit ts .term (s.entered n))
    (others : ∀ u : State, s.pos < u.pos → u.pos ≤ ts.length →
      ∀ t, Answers limit ts (.joined t) u) :
    Answers limit ts .expression s := by
  intro n
  obtain ⟨r, u, first⟩ := first n n
  cases r with
  | error e => exact ⟨_, _, .firstFails first⟩
  | ok t =>
    obtain ⟨further, inside⟩ := first.pos_lt rfl
    have behind : s.pos < u.pos := by
      have : (s.entered n).pos = s.pos := rfl
      omega
    obtain ⟨result, s', others⟩ := others u behind inside t n
    exact ⟨result, s', .first first others⟩

/-- Every call ends: each takes a token before it makes the same call again. -/
theorem answers (limit : UInt64) (ts : List Token) (call : Call) (s : State) :
    Answers limit ts call s := by
  induction left : ts.length - s.pos using Nat.strongRecOn generalizing call s with
  | _ m ih =>
    have later (call : Call) (u : State) (further : s.pos < u.pos) (inside : s.pos < ts.length) :
        Answers limit ts call u := ih (ts.length - u.pos) (by omega) call u rfl
    have others (u : State) (further : s.pos < u.pos) (inside : u.pos ≤ ts.length) (t : Tree) :
        Answers limit ts (.joined t) u := later _ u further (by omega)
    have term (n : Nat) : Answers limit ts .term (s.entered n) :=
      answers_term (later .expression _ (Nat.lt_succ_self s.pos))
    cases call with
    | term => exact answers_term (later .expression s.opened (Nat.lt_succ_self s.pos))
    | expression => exact answers_expression term others
    | joined t => exact answers_joined (later .term s.skipped (Nat.lt_succ_self s.pos)) others t

end

/-! ## Where expressions start -/

/-- The count is the number of parentheses that the tokens before the cursor leave open, and of the
calls for an expression around the cursor, and it is within the limit. -/
structure OnTrack (limit : UInt64) (ts : List Token) (nesting : Nat) (c : Cursor) : Prop where
  counted : LeavesOpen (ts.take c.pos) c.depth.toNat
  nested : nesting = c.depth.toNat
  within : c.depth ≤ limit

section
variable {limit : UInt64} {ts taken : List Token} {s u s' : State} {n : Nat} {c d : Cursor}

/-- The count does not start again while there are tokens in front of it. -/
theorem toNat_opened_depth {x : Token} (small : ts.length < UInt64.size)
    (below : s.depth.toNat ≤ s.pos) (found : ts[s.pos]? = some x) :
    s.opened.depth.toNat = s.depth.toNat + 1 := by
  have inside := inside_of_getElem? found
  show (s.depth + 1).toNat = _
  rw [UInt64.toNat_add]
  apply Nat.mod_eq_of_lt
  simp only [UInt64.toNat_one, UInt64.size] at small ⊢
  omega

theorem onTrack_start (limit : UInt64) (ts : List Token) :
    OnTrack limit ts 0 State.start.toCursor :=
  ⟨balanced_nil, rfl, UInt64.le_iff_toNat_le.2 (Nat.zero_le _)⟩

theorem OnTrack.passes (h : OnTrack limit ts n c) (passes : Passes ts c d taken) :
    OnTrack limit ts n d := by
  obtain ⟨between, same, balanced⟩ := passes
  obtain ⟨counted, nested, within⟩ := h
  constructor
  · rw [between.take_eq, same]
    exact counted.append balanced
  · rw [nested, same]
  · rw [same]
    exact within

theorem OnTrack.below (h : OnTrack limit ts n c) : c.depth.toNat ≤ c.pos := by
  have left := h.counted.left
  have few : opens (ts.take c.pos) ≤ c.pos :=
    Nat.le_trans List.countP_le_length (List.length_take_le _ _)
  omega

theorem OnTrack.opened {o : Nat} (h : OnTrack limit ts n s.toCursor)
    (small : ts.length < UInt64.size) (opens : ts[s.pos]? = some ⟨.openParen, o⟩)
    (fits : s.depth + 1 ≤ limit) : OnTrack limit ts (n + 1) s.opened.toCursor := by
  have deeper := toNat_opened_depth small h.below opens
  constructor
  · rw [deeper]
    have one : ts.take s.opened.pos = ts.take s.pos ++ [⟨.openParen, o⟩] :=
      (between_singleton opens).take_eq
    rw [one]
    exact h.counted.append (leavesOpen_openParen o)
  · rw [deeper, h.nested]
  · exact fits

theorem Leaf.entries_eq {r : Except ParseError Tree} (h : Leaf ts s r s') :
    s'.entries = s.entries := by
  cases h <;> rfl

theorem onTrack_of_entered (start : OnTrack limit ts n s.toCursor) {e : Entry}
    (h : e ∈ (s.entered n).entries ∨ OnTrack limit ts e.nesting e.toCursor) :
    e ∈ s.entries ∨ OnTrack limit ts e.nesting e.toCursor := by
  rcases h with here | later
  · rcases List.mem_cons.1 here with rfl | before
    · exact .inr start
    · exact .inl before
  · exact .inr later

/-- Every call for an expression starts on track. -/
theorem Evaluates.onTrack {call : Call} {r : Except ParseError Tree}
    (h : Evaluates limit ts call n s r s') (small : ts.length < UInt64.size)
    (start : OnTrack limit ts n s.toCursor) :
    ∀ e ∈ s'.entries, e ∈ s.entries ∨ OnTrack limit ts e.nesting e.toCursor := by
  induction h with
  | leaf bare condition =>
    intro e he
    rw [condition.entries_eq] at he
    exact .inl he
  | tooDeep | last | unsupported => exact fun e he => .inl he
  | groupFails opens fits _ inner | endless opens fits _ _ inner | unclosed opens fits _ _ _ inner
  | group opens fits _ _ inner => exact inner (start.opened small opens fits)
  | firstFails _ first => exact fun e he => onTrack_of_entered start (first start e he)
  | first term _ first others =>
    intro e he
    -- The term has put the count back, so the terms after it start on track as well.
    obtain ⟨taken, passes, -⟩ := term.passes rfl
    rcases others (start.passes passes) e he with here | later
    · exact onTrack_of_entered start (first start e here)
    · exact .inr later
  | rightFails t k joins _ right =>
    exact right (start.passes (passes_skipped joins ⟨by simp, by simp⟩))
  | more t k joins term _ right others =>
    intro e he
    have skipped := start.passes (passes_skipped joins ⟨by simp, by simp⟩)
    obtain ⟨taken, passes, -⟩ := term.passes rfl
    rcases others (skipped.passes passes) e he with here | later
    · exact right skipped e here
    · exact .inr later

end

end Descent

end Parser

end RecordRules
