import RecordRules.Proofs.CompiledLiterals
import RecordRules.Proofs.Results

/-!
# Limits cut off and change nothing else

A limit on open parentheses only decides whether the parser goes on. So two limits that let a row of
tokens pass give it the same tree, and a limit lets pass what opens no more parentheses at once.
-/

namespace RecordRules

namespace Parser

/-- How many parentheses a row of tokens leaves open. -/
def leftOpen (ts : List Token) : Nat :=
  ts.countP (·.kind = .openParen) - ts.countP (·.kind = .closeParen)

/-! ## The open groups of a run -/

section
variable {limit : Nat} {s s' : State} {t : Token} {ts : List Token}

theorem Step.length_groups (h : Step limit s t s') :
    s'.groups.length + [t].countP (·.kind = .closeParen) =
      s.groups.length + [t].countP (·.kind = .openParen) := by
  cases h with
  | literal groups left name c o literal => cases literal <;> simp
  | _ => simp

theorem length_groups_of_run (h : run limit s ts = .ok s') :
    s'.groups.length + ts.countP (·.kind = .closeParen) =
      s.groups.length + ts.countP (·.kind = .openParen) := by
  induction ts generalizing s with
  | nil =>
    cases h
    simp
  | cons t ts ih =>
    obtain ⟨next, hstep, hrun⟩ := run_cons_eq_ok_iff.1 h
    have one := hstep.length_groups
    have rest := ih hrun
    rw [← List.singleton_append, List.countP_append, List.countP_append]
    omega

theorem length_groups_eq_leftOpen (h : run limit .start ts = .ok s) :
    s.groups.length = leftOpen ts := by
  have counted := length_groups_of_run h
  simp only [State.start, List.length_nil] at counted
  unfold leftOpen
  omega

theorem length_groups_le_of_run (hs : s.groups.length ≤ limit) (h : run limit s ts = .ok s') :
    s'.groups.length ≤ limit := by
  induction ts generalizing s with
  | nil =>
    cases h
    exact hs
  | cons t ts ih =>
    obtain ⟨next, hstep, hrun⟩ := run_cons_eq_ok_iff.1 h
    exact ih (hstep.openAfter_eq hs).2 hrun

/-! ## One run under two limits -/

variable {limit' : Nat}

theorem Step.of_fits (h : Step limit s t s') (fits : s'.groups.length ≤ limit') :
    Step limit' s t s' := by
  cases h with
  | openParen left o _ => exact .openParen left o fits
  | field groups left name o => exact .field groups left name o
  | comparator groups left name c o => exact .comparator groups left name c o
  | literal groups left name c o literal => exact .literal groups left name c o literal
  | combinator groups tree kind o => exact .combinator groups tree kind o
  | closeParen g groups tree o => exact .closeParen g groups tree o

/-- A run goes the same way under another limit that every place of it keeps. -/
theorem run_of_fits (h : run limit s ts = .ok s')
    (fits : ∀ before, before <+: ts → ∀ place, run limit s before = .ok place →
      place.groups.length ≤ limit') : run limit' s ts = .ok s' := by
  induction ts generalizing s with
  | nil => exact h
  | cons t ts ih =>
    obtain ⟨next, hstep, hrun⟩ := run_cons_eq_ok_iff.1 h
    have one : run limit s [t] = .ok next := run_cons_eq_ok_iff.2 ⟨next, hstep, rfl⟩
    have room : next.groups.length ≤ limit' := fits [t] (by simp) next one
    refine run_cons_eq_ok_iff.2 ⟨next, hstep.of_fits room, ih hrun ?_⟩
    intro before hbefore place hplace
    apply fits (t :: before)
    · exact List.cons_prefix_cons.2 ⟨rfl, hbefore⟩
    · exact run_cons_eq_ok_iff.2 ⟨next, hstep, hplace⟩

end

/-! ## Trees under two limits -/

theorem leftOpen_le_of_parse {limit : Nat} {ts : List Token} {t : Tree}
    (h : parse limit ts = .ok t) : ∀ before, before <+: ts → leftOpen before ≤ limit := by
  rintro before ⟨after, rfl⟩
  rw [parse_eq_ok_iff_run, run_append] at h
  obtain ⟨place, hplace, -⟩ := exists_of_bind_eq_ok h
  have start : State.start.groups.length ≤ limit := Nat.zero_le limit
  rw [← length_groups_eq_leftOpen hplace]
  exact length_groups_le_of_run start hplace

theorem parse_of_leftOpen_le {limit limit' : Nat} {ts : List Token} {t : Tree}
    (h : parse limit ts = .ok t) (fits : ∀ before, before <+: ts → leftOpen before ≤ limit') :
    parse limit' ts = .ok t := by
  rw [parse_eq_ok_iff_run] at h ⊢
  apply run_of_fits h
  intro before hbefore place hplace
  rw [length_groups_eq_leftOpen hplace]
  exact fits before hbefore

theorem parse_unique {limit limit' : Nat} {ts : List Token} {t u : Tree}
    (ht : parse limit ts = .ok t) (hu : parse limit' ts = .ok u) : t = u := by
  have same := parse_of_leftOpen_le ht (leftOpen_le_of_parse hu)
  exact Except.ok.inj (same.symm.trans hu)

end Parser

/-! ## Texts under two limits -/

/-- A text of these tokens keeps the limits: it is not too long, and at no place are too many
parentheses open. -/
def Keeps (limits : Limits) (text : String) (tokens : List Token) : Prop :=
  text.utf8ByteSize ≤ limits.maxRuleLength.toNat ∧
    ∀ before, before <+: tokens → Parser.leftOpen before ≤ limits.maxNestingDepth.toNat

section
variable {limits other : Limits} {text : String} {tokens : List Token} {t u : Tree}

theorem compile_eq_ok_iff_of_tokenize (lexed : Token.tokenize text = .ok tokens) :
    compile limits text = .ok t ↔ text.utf8ByteSize ≤ limits.maxRuleLength.toNat ∧
      Parser.parse limits.maxNestingDepth.toNat tokens = .ok t := by
  rw [compile_eq_ok_iff, lexed]
  simp [Parser.parse_eq_ok_iff]

theorem keeps_of_compile (lexed : Token.tokenize text = .ok tokens)
    (h : compile limits text = .ok t) : Keeps limits text tokens := by
  obtain ⟨length, parsed⟩ := (compile_eq_ok_iff_of_tokenize lexed).1 h
  exact ⟨length, Parser.leftOpen_le_of_parse parsed⟩

theorem compile_of_keeps (lexed : Token.tokenize text = .ok tokens)
    (h : compile limits text = .ok t) (keeps : Keeps other text tokens) :
    compile other text = .ok t := by
  obtain ⟨-, parsed⟩ := (compile_eq_ok_iff_of_tokenize lexed).1 h
  obtain ⟨length, levels⟩ := keeps
  exact (compile_eq_ok_iff_of_tokenize lexed).2 ⟨length, Parser.parse_of_leftOpen_le parsed levels⟩

theorem compile_unique (ht : compile limits text = .ok t) (hu : compile other text = .ok u) :
    t = u := by
  obtain ⟨tokens, lexed, -⟩ := exists_tokens_of_compile ht
  obtain ⟨-, parsed⟩ := (compile_eq_ok_iff_of_tokenize lexed).1 ht
  obtain ⟨-, parsed'⟩ := (compile_eq_ok_iff_of_tokenize lexed).1 hu
  exact Parser.parse_unique parsed parsed'

theorem Keeps.raised (keeps : Keeps limits text tokens)
    (depth : limits.maxNestingDepth ≤ other.maxNestingDepth)
    (length : limits.maxRuleLength ≤ other.maxRuleLength) : Keeps other text tokens := by
  obtain ⟨short, levels⟩ := keeps
  refine ⟨short.trans (UInt64.le_iff_toNat_le.1 length), fun before hbefore => ?_⟩
  exact (levels before hbefore).trans (UInt64.le_iff_toNat_le.1 depth)

end

/-- **Limits.** Two limits that accept a text give it the same tree. A text that some limits accept
is accepted under just those that it keeps, so with its tree wherever limits are raised. -/
theorem compile_under_limits (text : String) :
    (∀ limits other t u, compile limits text = .ok t → compile other text = .ok u →
      t = u ∧ t.sameTree u) ∧
    (∀ limits t, compile limits text = .ok t → ∃ tokens, Token.tokenize text = .ok tokens ∧
      ∀ other, (∃ u, compile other text = .ok u) ↔ Keeps other text tokens) ∧
    ∀ limits other t, limits.maxNestingDepth ≤ other.maxNestingDepth →
      limits.maxRuleLength ≤ other.maxRuleLength → compile limits text = .ok t →
      compile other text = .ok t := by
  refine ⟨?_, ?_, ?_⟩
  · intro limits other t u ht hu
    obtain rfl := compile_unique ht hu
    exact ⟨rfl, sameTree_self_of_compile ht⟩
  · intro limits t ht
    obtain ⟨tokens, lexed, -⟩ := exists_tokens_of_compile ht
    refine ⟨tokens, lexed, fun other => ⟨?_, ?_⟩⟩
    · rintro ⟨u, hu⟩
      exact keeps_of_compile lexed hu
    · intro keeps
      exact ⟨t, compile_of_keeps lexed ht keeps⟩
  · intro limits other t depth length ht
    obtain ⟨tokens, lexed, -⟩ := exists_tokens_of_compile ht
    exact compile_of_keeps lexed ht ((keeps_of_compile lexed ht).raised depth length)

/-- Groups side by side and parentheses in a string, where two may be open, three, and one. -/
theorem compile_under_limits_groups :
    let text := "(a = '(((') OR ((b > 1) AND c < 2)"
    let t : Tree := .operator .or (.operand ⟨"a", .eq, .string "((("⟩)
      (.operator .and (.operand ⟨"b", .gt, .integer 1⟩) (.operand ⟨"c", .lt, .integer 2⟩))
    compile { maxNestingDepth := 2 } text = .ok t ∧
      compile { maxNestingDepth := 3 } text = .ok t ∧
      ¬ ∃ u, compile { maxNestingDepth := 1 } text = .ok u := by
  intro text t
  have two : compile { maxNestingDepth := 2 } text = .ok t :=
    Token.eq_ok_of_toOption (by decide +kernel)
  obtain ⟨-, accepted, raised⟩ := compile_under_limits text
  obtain ⟨tokens, lexed, kept⟩ := accepted _ t two
  have deep : (Token.tokenize text).toOption.map (fun ts => Parser.leftOpen (ts.take 8)) = some 2 :=
    by decide +kernel
  rw [lexed] at deep
  have deep : Parser.leftOpen (tokens.take 8) = 2 := Option.some.inj deep
  refine ⟨two, raised _ _ t (by decide) (by decide) two, ?_⟩
  rw [kept]
  rintro ⟨-, levels⟩
  have shallow : Parser.leftOpen (tokens.take 8) ≤ 1 := levels _ (List.take_prefix 8 tokens)
  omega

end RecordRules
