import Mathlib.Logic.ExistsUnique
import RecordRules.Proofs.Parsing

/-!
# Tokens that a rule can start with

The parser takes a token only if some rule goes on with it. So where the tokens run out too early
there are more that complete a rule, and an error at a token stays whatever comes after it.
-/

namespace RecordRules

/-- The message is that there is no token, or none where one is expected. -/
def ParseError.TellsOfEnd (e : ParseError) : Prop :=
  e.message = "Empty token list" ∨
    "Unexpected end of input, expected ".toList <+: e.message.toList

theorem ParseError.tellsOfEnd_iff {e : ParseError} :
    e.TellsOfEnd ↔ e = .noTokens ∨ ∃ expected, e = .endOfInput expected := by
  constructor
  · intro h
    unfold TellsOfEnd message at h
    cases e with
    | noTokens => exact .inl rfl
    | endOfInput expected => exact .inr ⟨expected, rfl⟩
    -- Every other message starts with other characters.
    | _ => simp [← String.toList_inj] at h
  · rintro (rfl | ⟨expected, rfl⟩)
    · exact .inl rfl
    · unfold TellsOfEnd message
      simp

namespace Parser

/-! ## An error at a token -/

section
variable {limit : Nat} {s : State} {t : Token} {ts : List Token} {e : ParseError}

theorem not_tellsOfEnd_of_step (h : step limit s t = .error e) : ¬ e.TellsOfEnd := by
  rw [ParseError.tellsOfEnd_iff]
  unfold step at h
  split at h
  · -- Before a term.
    split at h
    · split at h <;> cases h
      simp
    · cases h
    · cases h
      simp
  · -- After a field.
    split at h <;> cases h
    simp
  · -- After a comparator.
    split at h <;> cases h
    simp
  · -- After a term.
    split at h
    · cases h
    · cases h
      simp
    · cases h
      simp
    · split at h
      · cases h
        simp
      · split at h <;> cases h
        simp

theorem not_tellsOfEnd_of_run (h : run limit s ts = .error e) : ¬ e.TellsOfEnd := by
  induction ts generalizing s with
  | nil => cases h
  | cons t ts ih =>
    rw [run, List.foldlM_cons] at h
    cases hstep : step limit s t with
    | error e' =>
      rw [hstep] at h
      cases h
      exact not_tellsOfEnd_of_step hstep
    | ok next =>
      rw [hstep] at h
      exact ih h

theorem run_append_of_error (h : run limit s ts = .error e) (more : List Token) :
    run limit s (ts ++ more) = .error e := by
  rw [run_append, h]
  rfl

end

/-! ## A rule from every place -/

/-- Tokens that take a place to the end of its term. -/
def Place.completion : Place → List Token
  | .term _ => [⟨.word "x", 0⟩, ⟨.comparator .eq, 0⟩, ⟨.word "x", 0⟩]
  | .field _ _ => [⟨.comparator .eq, 0⟩, ⟨.word "x", 0⟩]
  | .comparator _ _ _ => [⟨.word "x", 0⟩]
  | .complete _ => []

/-- Tokens that end the term and close the open groups. -/
def State.completion (s : State) : List Token :=
  s.place.completion ++ s.groups.map fun _ => ⟨.closeParen, 0⟩

section
variable (limit : Nat)

theorem exists_run_place (groups : List Group) (place : Place) :
    ∃ t, run limit ⟨groups, place⟩ place.completion = .ok ⟨groups, .complete t⟩ := by
  cases place <;> exact ⟨_, rfl⟩

theorem exists_run_groups (groups : List Group) (t : Tree) :
    ∃ u, run limit ⟨groups, .complete t⟩ (groups.map fun _ => ⟨.closeParen, 0⟩) =
      .ok ⟨[], .complete u⟩ := by
  induction groups generalizing t with
  | nil => exact ⟨t, rfl⟩
  | cons g groups ih =>
    obtain ⟨u, hu⟩ := ih (g.left.graft t)
    exact ⟨u, run_cons_eq_ok_iff.2 ⟨_, .closeParen g groups t 0, hu⟩⟩

/-- A completion opens no parenthesis, so it needs no room below the limit. -/
theorem State.exists_run_completion (s : State) :
    ∃ t, run limit s s.completion = .ok ⟨[], .complete t⟩ := by
  obtain ⟨t, ht⟩ := exists_run_place limit s.groups s.place
  obtain ⟨u, hu⟩ := exists_run_groups limit s.groups t
  refine ⟨u, ?_⟩
  rw [State.completion, run_append, ht]
  exact hu

end

theorem tellsOfEnd_of_finish {s : State} {e : ParseError} (h : finish s = .error e) :
    e.TellsOfEnd ∧ s.completion ≠ [] := by
  rw [ParseError.tellsOfEnd_iff]
  obtain ⟨groups, place⟩ := s
  cases place with
  | complete t =>
    cases groups with
    | nil => cases h
    | cons g groups =>
      cases h
      simp [State.completion]
  | _ =>
    cases h
    simp [State.completion, Place.completion]

/-! ## What becomes of a row of tokens -/

section
variable {limit : Nat} {ts : List Token} {s : State} {e : ParseError}

theorem exists_parse_completion (h : run limit .start ts = .ok s) :
    ∃ t, parse limit (ts ++ s.completion) = .ok t := by
  obtain ⟨t, ht⟩ := s.exists_run_completion limit
  refine ⟨t, parse_eq_ok_iff_run.2 ?_⟩
  rw [run_append, h]
  exact ht

theorem parse_cons (limit : Nat) (t : Token) (ts : List Token) :
    parse limit (t :: ts) = run limit .start (t :: ts) >>= finish := rfl

theorem parse_of_run_error (h : run limit .start ts = .error e) : parse limit ts = .error e := by
  cases ts with
  | nil => cases h
  | cons t ts =>
    rw [parse_cons, h]
    rfl

theorem parse_of_finish (h : run limit .start ts = .ok s) (hfinish : finish s = .error e) :
    ∃ e', parse limit ts = .error e' ∧ e'.TellsOfEnd := by
  cases ts with
  | nil => exact ⟨.noTokens, rfl, ParseError.tellsOfEnd_iff.2 (.inl rfl)⟩
  | cons t ts =>
    refine ⟨e, ?_, (tellsOfEnd_of_finish hfinish).1⟩
    rw [parse_cons, h]
    exact hfinish

end

end Parser

/-- What can become of a row of tokens. -/
inductive Prospect
  | rule
  | start
  | nothing

/-- A row of tokens is a rule; or it ends too early, and more tokens make it a rule; or it has an
error that stays whatever tokens follow. -/
def Prospect.Of (limits : Limits) (ts : List Token) : Prospect → Prop
  | rule => ∃ t, parse limits ts = .ok t
  | start => ∃ e, parse limits ts = .error (.parse e) ∧ e.TellsOfEnd ∧
      ∃ more, more ≠ [] ∧ ∃ t, parse limits (ts ++ more) = .ok t
  | nothing => ∃ e, parse limits ts = .error (.parse e) ∧ ¬ e.TellsOfEnd ∧
      ∀ more, parse limits (ts ++ more) = .error (.parse e)

theorem parse_eq_ok {limits : Limits} {ts : List Token} {t : Tree}
    (h : Parser.parse limits.maxNestingDepth.toNat ts = .ok t) : parse limits ts = .ok t := by
  rw [parse, h]
  rfl

theorem parse_eq_error {limits : Limits} {ts : List Token} {e : ParseError}
    (h : Parser.parse limits.maxNestingDepth.toNat ts = .error e) :
    parse limits ts = .error (.parse e) := by
  rw [parse, h]
  rfl

theorem exists_prospect (limits : Limits) (ts : List Token) : ∃ p : Prospect, p.Of limits ts := by
  cases hrun : Parser.run limits.maxNestingDepth.toNat .start ts with
  | error e =>
    refine ⟨.nothing, e, ?_, Parser.not_tellsOfEnd_of_run hrun, fun more => ?_⟩
    · exact parse_eq_error (Parser.parse_of_run_error hrun)
    · have stays := Parser.run_append_of_error hrun more
      exact parse_eq_error (Parser.parse_of_run_error stays)
  | ok s =>
    cases hfinish : Parser.finish s with
    | ok t =>
      rw [Parser.finish_eq_ok_iff] at hfinish
      subst hfinish
      exact ⟨.rule, t, parse_eq_ok (Parser.parse_eq_ok_iff_run.2 hrun)⟩
    | error e =>
      obtain ⟨e', failed, tells⟩ := Parser.parse_of_finish hrun hfinish
      obtain ⟨t, completed⟩ := Parser.exists_parse_completion hrun
      have more := (Parser.tellsOfEnd_of_finish hfinish).2
      exact ⟨.start, e', parse_eq_error failed, tells, s.completion, more, t,
        parse_eq_ok completed⟩

theorem Prospect.Of.unique {limits : Limits} {ts : List Token} {p q : Prospect}
    (hp : p.Of limits ts) (hq : q.Of limits ts) : p = q := by
  cases p <;> cases q <;> grind [Prospect.Of]

/-- **Viable prefixes.** Every row of tokens is a rule, or ends where more tokens make it one, or has
an error at a token that no continuation changes; and it is only one of these. -/
theorem existsUnique_prospect (limits : Limits) (ts : List Token) :
    ∃! p : Prospect, p.Of limits ts := by
  obtain ⟨p, hp⟩ := exists_prospect limits ts
  exact ⟨p, hp, fun q hq => hq.unique hp⟩

end RecordRules
