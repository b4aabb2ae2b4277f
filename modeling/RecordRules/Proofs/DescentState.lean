import RecordRules.Proofs.DescentCalls

/-!
# The state of the parser by descent

The parser takes the tokens one by one and keeps the open groups in a list; the calls keep them in
each other. Main statement: the calls end on every row of tokens with what the parser says of it,
from every state they put the count back and take balanced tokens, and where an expression starts
the count is the number of open parentheses, and of calls around it, and within the limit.
-/

namespace RecordRules

namespace Parser

namespace Descent

/-! ## The parser goes along -/

/-- What the parser says of the tokens from a state on. -/
def outcome (limit : Nat) (σ : Parser.State) (us : List Token) : Except ParseError Tree :=
  Parser.run limit σ us >>= finish

/-- The place in the innermost group from which a call starts. -/
def Call.place (left : Left) : Call → Place
  | .term => .term left
  | .expression => .term none
  | .joined t => .complete t

/-- What stands before a term is grafted on by the caller. -/
def Call.graft (left : Left) : Call → Tree → Tree
  | .term, t => left.graft t
  | .expression, t | .joined _, t => t

/-- The parser, from the place of a call, fails as the call does, or gets to the tree of the call
where its cursor is. -/
def Agrees (limit : UInt64) (ts : List Token) (call : Call) (s : State)
    (r : Except ParseError Tree) (s' : State) : Prop :=
  ∀ (groups : List Group) (left : Left), groups.length = s.depth.toNat →
    outcome limit.toNat ⟨groups, call.place left⟩ (ts.drop s.pos) =
      r >>= fun t => outcome limit.toNat ⟨groups, .complete (call.graft left t)⟩ (ts.drop s'.pos)

section
variable {limit : Nat} {σ next : Parser.State} {ts : List Token} {s : State} {x : Token}

theorem outcome_step (found : ts[s.pos]? = some x) (taken : Step limit σ x next) :
    outcome limit σ (ts.drop s.pos) = outcome limit next (ts.drop s.skipped.pos) := by
  obtain ⟨inside, rfl⟩ := List.getElem?_eq_some_iff.1 found
  rw [List.drop_eq_getElem_cons inside, outcome, Parser.run, List.foldlM_cons,
    step_eq_ok_iff.2 taken]
  rfl

theorem outcome_step_error {e : ParseError} (found : ts[s.pos]? = some x)
    (refused : step limit σ x = .error e) : outcome limit σ (ts.drop s.pos) = .error e := by
  obtain ⟨inside, rfl⟩ := List.getElem?_eq_some_iff.1 found
  rw [List.drop_eq_getElem_cons inside, outcome, Parser.run, List.foldlM_cons, refused]
  rfl

theorem outcome_end (ended : ts[s.pos]? = none) :
    outcome limit σ (ts.drop s.pos) = finish σ := by
  rw [List.drop_eq_nil_of_le (List.getElem?_eq_none_iff.1 ended)]
  rfl

end

section
variable {limit : UInt64} {ts : List Token} {s u s' : State} {n : Nat}

theorem Leaf.agrees {r : Except ParseError Tree} (h : Leaf ts s r s')
    (bare : ∀ o, ts[s.pos]? ≠ some ⟨.openParen, o⟩) : Agrees limit ts .term s r s' := by
  intro groups left _
  have word {name : String} {o : Nat} (field : ts[s.pos]? = some ⟨.word name, o⟩) :
      outcome limit.toNat ⟨groups, .term left⟩ (ts.drop s.pos) =
        outcome limit.toNat ⟨groups, .field left name⟩ (ts.drop s.skipped.pos) :=
    outcome_step field (.field groups left name o)
  have words {name : String} {c : Comparator} {o p : Nat}
      (field : ts[s.pos]? = some ⟨.word name, o⟩)
      (sign : ts[s.skipped.pos]? = some ⟨.comparator c, p⟩) :
      outcome limit.toNat ⟨groups, .term left⟩ (ts.drop s.pos) =
        outcome limit.toNat ⟨groups, .comparator left name c⟩ (ts.drop s.skipped.skipped.pos) :=
    (word field).trans (outcome_step sign (.comparator groups left name c p))
  cases h with
  | condition name c o p q field sign value literal =>
    exact (words field sign).trans (outcome_step value (.literal groups left name c q literal))
  | noField ended => exact outcome_end ended
  | @notField x found other =>
    apply outcome_step_error found
    obtain ⟨kind, o⟩ := x
    cases kind with
    | openParen => exact absurd found (bare o)
    | word name => exact absurd rfl (other name)
    | _ => rfl
  | noComparator field ended => exact (word field).trans (outcome_end ended)
  | @notComparator name o x field found other =>
    refine (word field).trans (outcome_step_error found ?_)
    obtain ⟨kind, o⟩ := x
    cases kind with
    | comparator c => exact absurd rfl (other c)
    | _ => rfl
  | noLiteral field sign ended => exact (words field sign).trans (outcome_end ended)
  | @notLiteral name c o p x field sign found other =>
    refine (words field sign).trans (outcome_step_error found ?_)
    obtain ⟨kind, o⟩ := x
    cases kind with
    | word text => exact absurd (.word text) (other text)
    | quoted text => exact absurd (.quoted text) (other text)
    | _ => rfl

/-- An expression ends where its group ends. -/
theorem Evaluates.endsGroup {call : Call} {r : Except ParseError Tree} {t : Tree}
    (h : Evaluates limit ts call n s r s') (ok : r = .ok t) (expression : call ≠ .term) :
    EndsGroup ts[s'.pos]? := by
  induction h with
  | last t ends => exact ends
  | first _ _ _ others => exact others ok Call.noConfusion
  | more t k joins _ _ _ others => exact others ok Call.noConfusion
  | firstFails | unsupported | rightFails => cases ok
  | _ => exact absurd rfl expression

/-- After a tree, a token that does not go on with the expression closes the group or is refused. -/
theorem step_complete {x : Token} (ends : EndsGroup (some x)) (limit : Nat) (groups : List Group)
    (t : Tree) :
    step limit ⟨groups, .complete t⟩ x =
      match groups with
      | [] => .error (.afterExpression x)
      | g :: outer =>
        if x.kind = .closeParen then .ok ⟨outer, .complete (g.left.graft t)⟩
        else .error (.unclosed g.offset x) := by
  obtain ⟨noCombinator, noAmpersand, noBar⟩ := ends x rfl
  obtain ⟨kind, o⟩ := x
  cases kind with
  | combinator k => exact absurd rfl (noCombinator k)
  | doubleAmpersand => exact absurd rfl noAmpersand
  | doubleBar => exact absurd rfl noBar
  | _ => rfl

/-- The parser takes the parenthesis in front of a group, and then goes along with the call for the
expression in it. -/
theorem outcome_group {r : Except ParseError Tree} {o : Nat} (small : ts.length < UInt64.size)
    (below : s.depth.toNat ≤ s.pos) (opens : ts[s.pos]? = some ⟨.openParen, o⟩)
    (fits : s.depth + 1 ≤ limit)
    (inner : s.opened.depth.toNat ≤ s.opened.pos → Agrees limit ts .expression s.opened r u)
    {groups : List Group} (level : groups.length = s.depth.toNat) (left : Left) :
    outcome limit.toNat ⟨groups, .term left⟩ (ts.drop s.pos) =
      r >>= fun t => outcome limit.toNat ⟨⟨o, left⟩ :: groups, .complete t⟩ (ts.drop u.pos) := by
  have deeper := toNat_opened_depth small below opens
  have room : groups.length < limit.toNat := by
    have : s.opened.depth.toNat ≤ limit.toNat := UInt64.le_iff_toNat_le.1 fits
    omega
  have below' : s.opened.depth.toNat ≤ s.opened.pos := by
    rw [deeper]
    exact Nat.succ_le_succ below
  have level' : (⟨o, left⟩ :: groups).length = s.opened.depth.toNat := by
    rw [List.length_cons, level, deeper]
  exact (outcome_step opens (.openParen left o room)).trans (inner below' _ none level')

theorem Evaluates.depth_le {t : Tree} (h : Evaluates limit ts .term n s (.ok t) s')
    (below : s.depth.toNat ≤ s.pos) :
    s'.depth.toNat = s.depth.toNat ∧ s'.depth.toNat ≤ s'.pos := by
  obtain ⟨taken, passes, -⟩ := h.passes rfl
  obtain ⟨further, -⟩ := h.pos_lt rfl
  have same : s'.depth = s.depth := passes.depth
  rw [same]
  exact ⟨rfl, by omega⟩

theorem Evaluates.agrees {call : Call} {r : Except ParseError Tree}
    (h : Evaluates limit ts call n s r s') (small : ts.length < UInt64.size)
    (below : s.depth.toNat ≤ s.pos) : Agrees limit ts call s r s' := by
  -- The count never gets ahead of the cursor, so on this row it does not start again from zero.
  induction h with
  | leaf bare condition => exact condition.agrees bare
  | @tooDeep n o s opens deep =>
    intro groups left level
    apply outcome_step_error opens
    have full : ¬ groups.length < limit.toNat := by
      have exceeds : limit.toNat < s.opened.depth.toNat := UInt64.lt_iff_toNat_lt.1 deep
      rw [toNat_opened_depth small below opens] at exceeds
      omega
    simp [step, Call.place, full]
  | groupFails opens fits _ inner =>
    intro groups left level
    exact outcome_group small below opens fits inner level left
  | endless opens fits _ ended inner =>
    intro groups left level
    exact (outcome_group small below opens fits inner level left).trans (outcome_end ended)
  | unclosed opens fits expression found other inner =>
    intro groups left level
    refine (outcome_group small below opens fits inner level left).trans
      (outcome_step_error found ?_)
    have ends := expression.endsGroup rfl Call.noConfusion
    rw [found] at ends
    rw [step_complete ends]
    exact if_neg other
  | @group n o p s u t opens fits _ closes inner =>
    intro groups left level
    refine (outcome_group small below opens fits inner level left).trans ?_
    exact outcome_step closes (.closeParen ⟨o, left⟩ groups t p)
  | firstFails _ first =>
    intro groups left level
    exact first below groups none level
  | @first n s u s' t r term _ first others =>
    intro groups left level
    obtain ⟨same, below'⟩ := term.depth_le below
    exact (first below groups none level).trans (others below' groups none (level.trans same.symm))
  | last t ends => exact fun groups left level => rfl
  | @unsupported n s x t found sign =>
    intro groups left level
    apply outcome_step_error found
    obtain ⟨kind, o⟩ := x
    obtain rfl | rfl : kind = .doubleAmpersand ∨ kind = .doubleBar := sign <;> rfl
  | @rightFails n o s s' e t k joins _ right =>
    intro groups left level
    refine (outcome_step joins (.combinator groups t k o)).trans ?_
    exact right (Nat.le_succ_of_le below) groups (some (t, k)) level
  | @more n o s u s' r t' t k joins term _ right others =>
    intro groups left level
    have ahead : s.skipped.depth.toNat ≤ s.skipped.pos := Nat.le_succ_of_le below
    obtain ⟨same, below'⟩ := term.depth_le ahead
    refine (outcome_step joins (.combinator groups t k o)).trans ?_
    exact (right ahead groups (some (t, k)) level).trans
      (others below' groups none (level.trans same.symm))

end

/-! ## From the start -/

section
variable {limit : UInt64} {ts : List Token} {s' : State}

theorem Evaluates.parse_error {e : ParseError}
    (h : Evaluates limit ts .expression 0 .start (.error e) s') (hne : ts ≠ []) :
    Ends (parse limit ts) .start (.error e) s' := by
  rw [parse, if_neg (by simpa using hne)]
  exact .bind_error h.ends

theorem Evaluates.parse_ok {t : Tree} (h : Evaluates limit ts .expression 0 .start (.ok t) s')
    (hne : ts ≠ []) :
    Ends (parse limit ts) .start
      (match ts[s'.pos]? with
        | none => .ok t
        | some x => .error (.afterExpression x)) s' := by
  rw [parse, if_neg (by simpa using hne)]
  apply Ends.bind h.ends
  apply Ends.bind (ends_peek ts s')
  cases ts[s'.pos]? with
  | none => exact ends_pure t s'
  | some x => exact ends_throw _ s'

/-- What the parser says after an expression in no group. -/
theorem outcome_complete {t : Tree} (ends : EndsGroup ts[s'.pos]?) (limit : Nat) :
    outcome limit ⟨[], .complete t⟩ (ts.drop s'.pos) =
      match ts[s'.pos]? with
      | none => .ok t
      | some x => .error (.afterExpression x) := by
  cases found : ts[s'.pos]? with
  | none => exact outcome_end found
  | some x =>
    rw [found] at ends
    exact outcome_step_error found (step_complete ends limit [] t)

end

/-- The functions end on every row of tokens, with what the parser says if the row has a length of
64 bits; then every call for an expression has started on track. -/
theorem exists_ends_parse (limit : UInt64) (ts : List Token) :
    ∃ r s', Ends (parse limit ts) .start r s' ∧ (ts.length < UInt64.size →
      r = Parser.parse limit.toNat ts ∧
      ∀ e ∈ s'.entries, OnTrack limit ts e.nesting e.toCursor) := by
  by_cases hne : ts = []
  · subst hne
    exact ⟨_, _, ends_throw .noTokens .start, fun _ => ⟨rfl, by simp [State.start]⟩⟩
  obtain ⟨r, s', called⟩ := answers limit ts .expression .start 0
  have said : Parser.parse limit.toNat ts = outcome limit.toNat ⟨[], .term none⟩ (ts.drop 0) := by
    rw [Parser.parse, if_neg (by simpa using hne)]
    rfl
  have agrees (small : ts.length < UInt64.size) :=
    called.agrees small (Nat.zero_le _) [] none rfl
  have onTrack (small : ts.length < UInt64.size) :
      ∀ e ∈ s'.entries, OnTrack limit ts e.nesting e.toCursor := by
    intro e he
    rcases called.onTrack small (onTrack_start limit ts) e he with before | here
    · cases before
    · exact here
  cases r with
  | error e =>
    refine ⟨_, _, called.parse_error hne, fun small => ⟨?_, onTrack small⟩⟩
    exact (said.trans (agrees small)).symm
  | ok t =>
    refine ⟨_, _, called.parse_ok hne, fun small => ⟨?_, onTrack small⟩⟩
    have ends := called.endsGroup rfl Call.noConfusion
    exact ((said.trans (agrees small)).trans (outcome_complete ends limit.toNat)).symm

/-- **State.** From every state a call for a term or for an expression ends, inside of however many
others; if it gives a tree, the count is what it was, and the cursor has moved over three tokens at
least, with balanced parentheses. From the start the calls end too, on a row with a length of 64
bits with the result of the parser; there the count, wherever an expression starts, is the number of
parentheses that are open, and of calls for an expression around this one, and within the limit. -/
theorem state_of_calls (limits : Limits) (ts : List Token) :
    (∀ call ∈ [Call.term, Call.expression], ∀ (nesting : Nat) (s : State),
      ∃ r s', Ends (call.run limits.maxNestingDepth ts nesting) s r s' ∧ ∀ t, r = .ok t →
        s'.depth = s.depth ∧ s.pos + 3 ≤ s'.pos ∧ s'.pos ≤ ts.length ∧
        Balanced (ts.extract s.pos s'.pos)) ∧
    ∃ r s', Ends (parse limits.maxNestingDepth ts) .start r s' ∧ (ts.length < UInt64.size →
      RecordRules.parse limits ts = r.mapError .parse ∧ ∀ e ∈ s'.entries,
        LeavesOpen (ts.take e.pos) e.depth.toNat ∧ e.depth ≤ limits.maxNestingDepth ∧
        e.nesting = e.depth.toNat) := by
  constructor
  · intro call hcall nesting s
    have least : call.least = 3 := by
      obtain rfl | rfl : call = .term ∨ call = .expression := by simpa using hcall
      · rfl
      · rfl
    obtain ⟨r, s', called⟩ := answers limits.maxNestingDepth ts call s nesting
    refine ⟨r, s', called.ends, ?_⟩
    rintro t rfl
    obtain ⟨taken, passes, -⟩ := called.passes rfl
    obtain ⟨further, inside⟩ := called.pos_lt least
    refine ⟨passes.depth, further, inside, ?_⟩
    rw [passes.between.extract_eq]
    exact passes.balanced
  · obtain ⟨r, s', ended, small⟩ := exists_ends_parse limits.maxNestingDepth ts
    refine ⟨r, s', ended, fun h => ?_⟩
    obtain ⟨rfl, onTrack⟩ := small h
    exact ⟨rfl, fun e he => ⟨(onTrack e he).counted, (onTrack e he).within, (onTrack e he).nested⟩⟩

/-- A group in a group: the inner one by itself, and the whole row. -/
theorem state_of_calls_nested :
    let ts : List Token := [⟨.openParen, 0⟩, ⟨.openParen, 1⟩, ⟨.word "a", 2⟩, ⟨.comparator .gt, 4⟩,
      ⟨.word "1", 6⟩, ⟨.closeParen, 7⟩, ⟨.combinator .or, 9⟩, ⟨.word "b", 12⟩,
      ⟨.comparator .eq, 14⟩, ⟨.word "2", 16⟩, ⟨.closeParen, 17⟩]
    let limits : Limits := { maxNestingDepth := 2 }
    (∃ t s', Ends (Call.term.run limits.maxNestingDepth ts 1) ⟨⟨1, 1⟩, []⟩ (.ok t) s' ∧
      s'.depth = 1 ∧ s'.pos = 6 ∧ Balanced (ts.extract 1 6)) ∧
    ∃ t s', Ends (parse limits.maxNestingDepth ts) .start (.ok t) s' ∧
      RecordRules.parse limits ts = .ok t ∧
      ∃ e ∈ s'.entries, e.pos = 2 ∧ e.nesting = 2 ∧ LeavesOpen (ts.take e.pos) 2 := by
  intro ts limits
  let a : Tree := .operand ⟨"a", .gt, .ofText "1"⟩
  let b : Tree := .operand ⟨"b", .eq, .ofText "2"⟩
  have last (p : Nat) (hp : p = 5 ∨ p = 10 ∨ p = 11) : EndsGroup ts[p]? := by
    rcases hp with rfl | rfl | rfl <;> rintro x ⟨⟩ <;> simp
  -- Where the inner group closes, after the calls for an expression that came before it.
  let close (entries : List Entry) : State := ⟨⟨5, 2⟩, ⟨⟨2, 2⟩, 2⟩ :: entries⟩
  have inner (entries : List Entry) :
      Evaluates 2 ts .term 1 ⟨⟨1, 1⟩, entries⟩ (.ok a) (close entries).skipped.closed := by
    have leaf : Leaf ts ⟨⟨2, 2⟩, ⟨⟨2, 2⟩, 2⟩ :: entries⟩ (.ok a) (close entries) :=
      .condition "a" .gt 2 4 6 rfl rfl rfl (.word "1")
    have first : Evaluates 2 ts .term 2 ⟨⟨2, 2⟩, ⟨⟨2, 2⟩, 2⟩ :: entries⟩ (.ok a) (close entries) :=
      .leaf (by rintro o ⟨⟩) leaf
    have whole : Evaluates 2 ts .expression 2 ⟨⟨2, 2⟩, entries⟩ (.ok a) (close entries) :=
      .first first (.last a (last 5 (by simp)))
    have opens : ts[(⟨⟨1, 1⟩, entries⟩ : State).pos]? = some ⟨.openParen, 1⟩ := rfl
    have closes : ts[(close entries).pos]? = some ⟨.closeParen, 7⟩ := rfl
    have fits : (1 : UInt64) + 1 ≤ 2 := by decide
    exact .group opens fits whole closes
  let second : State := (close [⟨⟨1, 1⟩, 1⟩, ⟨⟨0, 0⟩, 0⟩]).skipped.closed.skipped
  have outer : Evaluates 2 ts .expression 0 .start (.ok (.operator .or a b))
      second.skipped.skipped.skipped.skipped.closed := by
    have leaf : Leaf ts second (.ok b) second.skipped.skipped.skipped :=
      .condition "b" .eq 12 14 16 rfl rfl rfl (.word "2")
    have right : Evaluates 2 ts .term 1 second (.ok b) second.skipped.skipped.skipped :=
      .leaf (by rintro o ⟨⟩) leaf
    have group : Evaluates 2 ts .expression 1 ⟨⟨1, 1⟩, [⟨⟨0, 0⟩, 0⟩]⟩ (.ok (.operator .or a b))
        second.skipped.skipped.skipped :=
      .first (inner _) (.more a .or rfl right (.last _ (last 10 (by simp))))
    have opens : ts[(State.start.entered 0).pos]? = some ⟨.openParen, 0⟩ := rfl
    have closes : ts[second.skipped.skipped.skipped.pos]? = some ⟨.closeParen, 17⟩ := rfl
    have fits : (0 : UInt64) + 1 ≤ 2 := by decide
    exact .first (.group opens fits group closes) (.last _ (last 11 (by simp)))
  obtain ⟨calls, r, s', ended, fromStart⟩ := state_of_calls limits ts
  constructor
  · obtain ⟨r, s', ended, kept⟩ := calls .term (by simp) 1 ⟨⟨1, 1⟩, []⟩
    obtain ⟨rfl, rfl⟩ := ended.unique (inner []).ends
    obtain ⟨depth, -, -, balanced⟩ := kept a rfl
    exact ⟨a, _, ended, depth, rfl, balanced⟩
  · have parsed := outer.parse_ok (List.cons_ne_nil _ _)
    obtain ⟨rfl, rfl⟩ := ended.unique parsed
    obtain ⟨same, onTrack⟩ := fromStart (by decide)
    have deepest := onTrack ⟨⟨2, 2⟩, 2⟩ List.mem_cons_self
    exact ⟨_, _, ended, same, _, List.mem_cons_self, rfl, rfl, deepest.1⟩

end Descent

end Parser

end RecordRules
