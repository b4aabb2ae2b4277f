import RecordRules.Compilation
import RecordRules.Proofs.Grammar

/-!
# The parser reads the grammar

The tokens that the parser has taken are what came before each open parenthesis and what stands in
the innermost group. A step keeps that, so what is accepted has a derivation; in the other direction
a derivation is followed token by token.
-/

namespace RecordRules

namespace Parser

open Token (Kind)

/-! ## What a step can do -/

/-- The tokens that a state can take, and the state after each. -/
inductive Step (limit : Nat) : State → Token → State → Prop
  | openParen {groups : List Group} (left : Left) (o : Nat) (fits : groups.length < limit) :
      Step limit ⟨groups, .term left⟩ ⟨.openParen, o⟩ ⟨⟨o, left⟩ :: groups, .term none⟩
  | field (groups : List Group) (left : Left) (name : String) (o : Nat) :
      Step limit ⟨groups, .term left⟩ ⟨.word name, o⟩ ⟨groups, .field left name⟩
  | comparator (groups : List Group) (left : Left) (name : String) (c : Comparator) (o : Nat) :
      Step limit ⟨groups, .field left name⟩ ⟨.comparator c, o⟩ ⟨groups, .comparator left name c⟩
  | literal {kind : Kind} {text : String} (groups : List Group) (left : Left) (name : String)
      (c : Comparator) (o : Nat) (literal : IsLiteral kind text) :
      Step limit ⟨groups, .comparator left name c⟩ ⟨kind, o⟩
        ⟨groups, .complete (left.graft (.operand ⟨name, c, .ofText text⟩))⟩
  | combinator (groups : List Group) (tree : Tree) (kind : Combinator) (o : Nat) :
      Step limit ⟨groups, .complete tree⟩ ⟨.combinator kind, o⟩ ⟨groups, .term (some (tree, kind))⟩
  | closeParen (g : Group) (groups : List Group) (tree : Tree) (o : Nat) :
      Step limit ⟨g :: groups, .complete tree⟩ ⟨.closeParen, o⟩
        ⟨groups, .complete (g.left.graft tree)⟩

theorem step_eq_ok_iff {limit : Nat} {s s' : State} {t : Token} :
    step limit s t = .ok s' ↔ Step limit s t s' := by
  constructor
  · intro h
    obtain ⟨groups, place⟩ := s
    obtain ⟨kind, o⟩ := t
    cases place with
    | term left =>
      cases kind <;> simp only [step, reduceCtorEq] at h
      case openParen =>
        split at h
        · cases h
          exact .openParen left o ‹_›
        · cases h
      case word name =>
        cases h
        exact .field groups left name o
    | field left name =>
      cases kind <;> simp only [step, reduceCtorEq] at h
      case comparator c =>
        cases h
        exact .comparator groups left name c o
    | comparator left name c =>
      cases kind <;> simp only [step, reduceCtorEq] at h
      case word text =>
        cases h
        exact .literal groups left name c o (.word text)
      case quoted text =>
        cases h
        exact .literal groups left name c o (.quoted text)
    | complete tree =>
      cases kind <;> cases groups <;> simp only [step, reduceCtorEq, if_true, if_false] at h
      case combinator.nil kind =>
        cases h
        exact .combinator [] tree kind o
      case combinator.cons kind g groups =>
        cases h
        exact .combinator (g :: groups) tree kind o
      case closeParen.cons g groups =>
        cases h
        exact .closeParen g groups tree o
  · intro h
    cases h with
    | openParen left o fits => simp [step, fits]
    | literal groups left name c o literal => cases literal <;> rfl
    | _ => rfl

/-! ## What a state has read -/

/-- What stands before a term is nothing, or an expression and a combinator. -/
def Left.Reads (left : Left) (ks : List Kind) : Prop :=
  match left with
  | none => ks = []
  | some (t, kind) => ∃ ls, ks = ls ++ [.combinator kind] ∧ Derives .expression ls t

/-- The tokens of the innermost group up to a place. -/
def Place.Reads (place : Place) (ks : List Kind) : Prop :=
  match place with
  | .term left => left.Reads ks
  | .field left name => ∃ ls, ks = ls ++ [.word name] ∧ left.Reads ls
  | .comparator left name c => ∃ ls, ks = ls ++ [.word name, .comparator c] ∧ left.Reads ls
  | .complete t => Derives .expression ks t

/-- The tokens before the innermost group. -/
def GroupsRead : List Group → List Kind → Prop
  | [], ks => ks = []
  | g :: groups, ks =>
    ∃ outer ls, ks = outer ++ ls ++ [.openParen] ∧ GroupsRead groups outer ∧ g.left.Reads ls

/-- A state after the tokens `ks`. -/
def State.Reads (s : State) (ks : List Kind) : Prop :=
  ∃ outer inner, ks = outer ++ inner ∧ GroupsRead s.groups outer ∧ s.place.Reads inner

theorem Left.Reads.derives_graft {left : Left} {ks ls : List Kind} {t : Tree} (hl : left.Reads ks)
    (ht : Derives .term ls t) : Derives .expression (ks ++ ls) (left.graft t) := by
  cases left with
  | none =>
    obtain rfl : ks = [] := hl
    exact .first ht
  | some l =>
    obtain ⟨before, kind⟩ := l
    obtain ⟨us, rfl, hus⟩ := hl
    simpa [Left.graft] using hus.more kind ht

theorem State.Reads.step {limit : Nat} {s s' : State} {t : Token} {ks : List Kind}
    (hs : s.Reads ks) (h : Step limit s t s') : s'.Reads (ks ++ [t.kind]) := by
  obtain ⟨outer, inner, rfl, houter, hinner⟩ := hs
  cases h with
  | openParen left o fits =>
    exact ⟨outer ++ inner ++ [.openParen], [], by simp, ⟨outer, inner, rfl, houter, hinner⟩, rfl⟩
  | field groups left name o =>
    exact ⟨outer, inner ++ [.word name], by simp, houter, inner, rfl, hinner⟩
  | comparator groups left name c o =>
    obtain ⟨ls, rfl, hls⟩ := hinner
    exact ⟨outer, ls ++ [.word name, .comparator c], by simp, houter, ls, rfl, hls⟩
  | @literal kind text groups left name c o literal =>
    obtain ⟨ls, rfl, hls⟩ := hinner
    refine ⟨outer, ls ++ [.word name, .comparator c, kind], by simp, houter, ?_⟩
    exact hls.derives_graft (.condition name c literal)
  | combinator groups tree kind o =>
    exact ⟨outer, inner ++ [.combinator kind], by simp, houter, inner, rfl, hinner⟩
  | closeParen g groups tree o =>
    obtain ⟨outer', ls, rfl, houter', hls⟩ := houter
    refine ⟨outer', ls ++ (.openParen :: inner ++ [.closeParen]), by simp, houter', ?_⟩
    exact hls.derives_graft (.group hinner)

theorem Step.openAfter_eq {limit : Nat} {s s' : State} {t : Token} (h : Step limit s t s')
    (hs : s.groups.length ≤ limit) :
    openAfter s.groups.length t.kind = s'.groups.length ∧ s'.groups.length ≤ limit := by
  cases h with
  | openParen left o fits => exact ⟨rfl, fits⟩
  | literal groups left name c o literal => cases literal <;> exact ⟨rfl, hs⟩
  | closeParen g groups tree o => exact ⟨rfl, Nat.le_of_succ_le hs⟩
  | _ => exact ⟨rfl, hs⟩

/-! ## Runs -/

abbrev run (limit : Nat) (s : State) (ts : List Token) : Except ParseError State :=
  ts.foldlM (step limit) s

theorem run_cons_eq_ok_iff {limit : Nat} {s s' : State} {t : Token} {ts : List Token} :
    run limit s (t :: ts) = .ok s' ↔ ∃ next, Step limit s t next ∧ run limit next ts = .ok s' := by
  rw [run, List.foldlM_cons]
  cases h : step limit s t with
  | error e =>
    have : ∀ next, ¬ Step limit s t next := fun next hnext => by simp [step_eq_ok_iff.2 hnext] at h
    simp [this, bind, Except.bind]
  | ok next =>
    constructor
    · exact fun hrun => ⟨next, step_eq_ok_iff.1 h, hrun⟩
    · rintro ⟨next', hnext, hrun⟩
      rw [step_eq_ok_iff.2 hnext] at h
      cases h
      exact hrun

theorem State.Reads.run {limit : Nat} {s s' : State} {ts : List Token} {ks : List Kind}
    (hs : s.Reads ks) (h : Parser.run limit s ts = .ok s') : s'.Reads (ks ++ ts.map (·.kind)) := by
  induction ts generalizing s ks with
  | nil =>
    cases h
    simpa using hs
  | cons t ts ih =>
    obtain ⟨next, hstep, hrun⟩ := run_cons_eq_ok_iff.1 h
    simpa using ih (hs.step hstep) hrun

theorem maxOpen_le_of_run {limit : Nat} {s s' : State} {ts : List Token}
    (hs : s.groups.length ≤ limit) (h : run limit s ts = .ok s') :
    maxOpen s.groups.length (ts.map (·.kind)) ≤ limit := by
  induction ts generalizing s with
  | nil => exact hs
  | cons t ts ih =>
    obtain ⟨next, hstep, hrun⟩ := run_cons_eq_ok_iff.1 h
    obtain ⟨hopen, hnext⟩ := hstep.openAfter_eq hs
    simp only [List.map_cons, maxOpen, hopen]
    exact Nat.max_le.2 ⟨hs, ih hnext hrun⟩

theorem run_append (limit : Nat) (s : State) (ts us : List Token) :
    run limit s (ts ++ us) = run limit s ts >>= fun next => run limit next us :=
  List.foldlM_append

theorem exists_of_map_kind_eq_cons {ts : List Token} {k : Kind} {ks : List Kind}
    (h : ts.map (·.kind) = k :: ks) : ∃ o us, ts = ⟨k, o⟩ :: us ∧ us.map (·.kind) = ks := by
  obtain ⟨t, us, rfl, rfl, hus⟩ := List.map_eq_cons_iff.1 h
  exact ⟨t.offset, us, rfl, hus⟩

/-- The place at which a part starts: an expression starts its group. -/
def Part.StartsAt : Part → Left → Prop
  | .term, _ => True
  | .expression, left => left = none

theorem Derives.run {part : Part} {ks : List Kind} {t : Tree} (h : Derives part ks t) {limit : Nat}
    {groups : List Group} {left : Left} (starts : part.StartsAt left) {ts : List Token}
    (hts : ts.map (·.kind) = ks) (fits : maxOpen groups.length ks ≤ limit) :
    Parser.run limit ⟨groups, .term left⟩ ts = .ok ⟨groups, .complete (left.graft t)⟩ := by
  induction h generalizing groups left ts with
  | condition name c literal =>
    obtain ⟨o, ts₁, rfl, h₁⟩ := exists_of_map_kind_eq_cons hts
    obtain ⟨p, ts₂, rfl, h₂⟩ := exists_of_map_kind_eq_cons h₁
    obtain ⟨q, ts₃, rfl, h₃⟩ := exists_of_map_kind_eq_cons h₂
    obtain rfl := List.map_eq_nil_iff.1 h₃
    cases literal <;> rfl
  | @group ks t inner ih =>
    rw [inner.maxOpen_group] at fits
    obtain ⟨o, rest, rfl, hrest⟩ := exists_of_map_kind_eq_cons hts
    obtain ⟨ts, last, rfl, hinner, hlast⟩ := List.map_eq_append_iff.1 hrest
    obtain ⟨p, none, rfl, hnone⟩ := exists_of_map_kind_eq_cons hlast
    obtain rfl := List.map_eq_nil_iff.1 hnone
    have room : groups.length < limit := by
      have := le_maxOpen (groups.length + 1) ks
      omega
    have inside : Parser.run limit ⟨⟨o, left⟩ :: groups, .term none⟩ ts =
        .ok ⟨⟨o, left⟩ :: groups, .complete t⟩ := ih rfl hinner fits
    refine run_cons_eq_ok_iff.2 ⟨_, .openParen left o room, ?_⟩
    rw [run_append, inside]
    rfl
  | first only ih => exact ih trivial hts fits
  | @more ks ls l r kind hl hr ihl ihr =>
    -- The left side starts the group, so nothing is in front of it that it could be grafted on.
    obtain rfl : left = none := starts
    rw [hl.maxOpen_joined, Nat.max_le] at fits
    obtain ⟨ts, rest, rfl, hleft, hrest⟩ := List.map_eq_append_iff.1 hts
    obtain ⟨o, us, rfl, hright⟩ := exists_of_map_kind_eq_cons hrest
    rw [run_append, ihl rfl hleft fits.1]
    exact run_cons_eq_ok_iff.2 ⟨_, .combinator groups l kind o, ihr trivial hright fits.2⟩

/-! ## Whole token lists -/

theorem finish_eq_ok_iff {s : State} {t : Tree} : finish s = .ok t ↔ s = ⟨[], .complete t⟩ := by
  obtain ⟨groups, place⟩ := s
  cases place <;> cases groups <;> simp [finish]

theorem parse_eq_ok_iff_run {limit : Nat} {ts : List Token} {t : Tree} :
    parse limit ts = .ok t ↔ run limit .start ts = .ok ⟨[], .complete t⟩ := by
  cases ts with
  | nil => simp [parse, run, State.start, pure, Except.pure]
  | cons first ts =>
    simp only [parse, List.isEmpty_cons, Bool.false_eq_true, if_false]
    cases h : (first :: ts).foldlM (step limit) State.start with
    | error e => simp [run, h, bind, Except.bind]
    | ok s => simp [run, h, bind, Except.bind, finish_eq_ok_iff]

def Accepts (limit : Nat) (ts : List Token) (t : Tree) : Prop :=
  Derives .expression (ts.map (·.kind)) t ∧ maxOpen 0 (ts.map (·.kind)) ≤ limit

theorem parse_eq_ok_iff {limit : Nat} {ts : List Token} {t : Tree} :
    parse limit ts = .ok t ↔ Accepts limit ts t := by
  rw [parse_eq_ok_iff_run]
  constructor
  · intro h
    have start : State.start.Reads [] := ⟨[], [], rfl, rfl, rfl⟩
    obtain ⟨outer, inner, hks, rfl, hinner⟩ := start.run h
    obtain rfl : ts.map (·.kind) = inner := by simpa using hks
    exact ⟨hinner, maxOpen_le_of_run (Nat.zero_le limit) h⟩
  · exact fun ⟨derived, fits⟩ => derived.run rfl rfl fits

theorem Accepts.exists_joined {limit : Nat} {ts us : List Token} {t u : Tree}
    (ht : Accepts limit ts t) (hu : Accepts limit us u) (kind : Combinator) (o : Nat) :
    ∃ joined, Accepts limit (ts ++ ⟨.combinator kind, o⟩ :: us) joined := by
  obtain ⟨joined, h⟩ := ht.1.exists_joined kind hu.1
  refine ⟨joined, by simpa using h, ?_⟩
  rw [List.map_append, List.map_cons, ht.1.maxOpen_joined]
  exact Nat.max_le.2 ⟨ht.2, hu.2⟩

end Parser

/-! ## Parsing under limits -/

theorem parse_eq_ok_iff_accepts {limits : Limits} {ts : List Token} {t : Tree} :
    parse limits ts = .ok t ↔ Parser.Accepts limits.maxNestingDepth.toNat ts t := by
  rw [← Parser.parse_eq_ok_iff, parse]
  cases Parser.parse limits.maxNestingDepth.toNat ts with
  | error e => constructor <;> intro h <;> cases h
  | ok u => constructor <;> intro h <;> cases h <;> rfl

theorem exists_parse_error_of_ne_ok {limits : Limits} {ts : List Token}
    (h : ∀ t, parse limits ts ≠ .ok t) : ∃ e, parse limits ts = .error (.parse e) := by
  unfold parse at h ⊢
  cases hp : Parser.parse limits.maxNestingDepth.toNat ts with
  | error e => exact ⟨e, rfl⟩
  | ok t => exact absurd (by rw [hp]; rfl) (h t)

/-- The parser accepts what the grammar reads within the limits, with the tree of the grammar, and
all else is a parse error. So three signs are never accepted, offsets decide nothing, and groups
side by side count one by one. -/
theorem parse_accepts_grammar (limits : Limits) (ts : List Token) :
    (∀ t, parse limits ts = .ok t ↔
      Parser.Derives .expression (ts.map (·.kind)) t ∧
        Parser.maxOpen 0 (ts.map (·.kind)) ≤ limits.maxNestingDepth.toNat) ∧
    ((∀ t, ¬ (Parser.Derives .expression (ts.map (·.kind)) t ∧
        Parser.maxOpen 0 (ts.map (·.kind)) ≤ limits.maxNestingDepth.toNat)) →
      ∃ e, parse limits ts = .error (.parse e)) ∧
    (∀ t, parse limits ts = .ok t → ∀ x ∈ ts, x.kind ≠ .doubleAmpersand ∧ x.kind ≠ .doubleBar ∧
      x.kind ≠ .exclamation) ∧
    (∀ us t, us.map (·.kind) = ts.map (·.kind) →
      (parse limits us = .ok t ↔ parse limits ts = .ok t)) ∧
    (∀ t us u kind o, parse limits ts = .ok t → parse limits us = .ok u →
      ∃ joined, parse limits (ts ++ ⟨.combinator kind, o⟩ :: us) = .ok joined) := by
  simp only [parse_eq_ok_iff_accepts]
  refine ⟨fun t => Iff.rfl, fun h => ?_, fun t h x hx => ?_, fun us t h => ?_,
    fun t us u kind o ht hu => ht.exists_joined hu kind o⟩
  · exact exists_parse_error_of_ne_ok fun t ht => h t (parse_eq_ok_iff_accepts.1 ht)
  · obtain ⟨hamp, hbar, hmark⟩ := h.1.not_mem
    have hmem : x.kind ∈ ts.map (·.kind) := List.mem_map_of_mem hx
    exact ⟨fun h => hamp (h ▸ hmem), fun h => hbar (h ▸ hmem), fun h => hmark (h ▸ hmem)⟩
  · rw [Parser.Accepts, Parser.Accepts, h]

/-- Two groups side by side, where one parenthesis may be open at once. -/
theorem parse_accepts_grammar_groups :
    let limits : Limits := { maxNestingDepth := 1 }
    let group : List Token := [⟨.openParen, 0⟩, ⟨.word "age", 1⟩, ⟨.comparator .gt, 5⟩,
      ⟨.word "30", 7⟩, ⟨.closeParen, 9⟩]
    ∃ joined, parse limits (group ++ ⟨.combinator .and, 11⟩ :: group) = .ok joined :=
  (parse_accepts_grammar _ _).2.2.2.2 (.operand ⟨"age", .gt, .integer 30⟩) _
    (.operand ⟨"age", .gt, .integer 30⟩) .and 11 rfl rfl

end RecordRules
