import RecordRules.Proofs.WrittenNumber

/-!
# JSON values read from their text

A written value is read again as it is, but for its numbers: each of them is read from its own text.
What follows a value does not change it, if it goes on no number.
-/

namespace RecordRules.Json

/-! ## The document of a written value -/

mutual

/-- What the text of a value says. -/
def document : Json → Document
  | null => .null
  | bool b => .bool b
  | number n => .number n.reread?
  | string s => .string (some s)
  | array items => .array (documentItems items)
  | object members => .object (documentMembers members)

def documentItems : List Json → List Document
  | [] => []
  | j :: items => j.document :: documentItems items

def documentMembers : List (String × Json) → List (Option String × Document)
  | [] => []
  | (key, j) :: members => (some key, j.document) :: documentMembers members

end

namespace Reader

/-! ## Strings -/

theorem unit?_control {n : Nat} (h : n < 0x20) :
    unit? '0' '0' (Nat.digitChar (n / 16)) (Nat.digitChar (n % 16)) = some n := by
  have all : ∀ n < 0x20,
      unit? '0' '0' (Nat.digitChar (n / 16)) (Nat.digitChar (n % 16)) = some n := by decide
  exact all n h

theorem pieces?_plain {c : Char} (quote : c ≠ '"') (backslash : c ≠ '\\')
    (control : ¬ c.toNat < 0x20) (cs : List Char) :
    pieces? (c :: cs) = (pieces? cs).map fun (ps, rest) => (.char c :: ps, rest) := by
  rw [pieces?.eq_def]
  split
  · exact absurd (List.cons.inj ‹_›).1 quote
  · exact absurd (List.cons.inj ‹_›).1 backslash
  · exact absurd (List.cons.inj ‹_›).1 backslash
  · rename_i heq
    obtain ⟨rfl, rfl⟩ := List.cons.inj heq
    rw [if_neg control]
    cases pieces? cs <;> rfl
  · exact absurd ‹_› (List.cons_ne_nil c cs)

theorem pieces?_escaped {c d : Char} (h : escaped? c = some d) (cs : List Char) :
    pieces? ('\\' :: c :: cs) = (pieces? cs).map fun (ps, rest) => (.char d :: ps, rest) := by
  rw [pieces?.eq_def]
  split
  · rename_i heq
    exact absurd (List.cons.inj heq).1 (by decide)
  · rename_i heq
    obtain ⟨rfl, -⟩ := List.cons.inj (List.cons.inj heq).2
    cases h
  · rename_i heq
    obtain ⟨rfl, rfl⟩ := List.cons.inj (List.cons.inj heq).2
    rw [h]
    cases pieces? cs <;> rfl
  · rename_i other heq
    obtain ⟨rfl, rfl⟩ := List.cons.inj heq
    exact absurd rfl (other c cs rfl)
  · exact absurd ‹_› (List.cons_ne_nil '\\' (c :: cs))

/-- An escaped character is read as one piece, which stands for that character. -/
theorem exists_piece (c : Char) (cs : List Char) :
    ∃ p, pieces? (escape c ++ cs) = (pieces? cs).map (fun (ps, rest) => (p :: ps, rest)) ∧
      ∀ ps, joined? (p :: ps) = (joined? ps).map (c :: ·) := by
  unfold escape
  split
  case h_8 quote backslash _ _ _ _ _ =>
    split
    · rename_i control
      refine ⟨.unit c.toNat, ?_, fun ps => ?_⟩
      · simp only [List.cons_append, List.nil_append, pieces?, unit?_control control]
        cases pieces? cs <;> rfl
      · have low : c.toNat < 0xD800 := by omega
        rw [joined?.eq_def]
        simp [low]
    · rename_i control
      refine ⟨.char c, ?_, fun ps => rfl⟩
      exact pieces?_plain quote backslash control cs
  all_goals exact ⟨.char _, pieces?_escaped rfl cs, fun ps => rfl⟩

theorem exists_pieces (cs rest : List Char) :
    ∃ ps, pieces? (cs.flatMap escape ++ '"' :: rest) = some (ps, rest) ∧ joined? ps = some cs := by
  induction cs with
  | nil => exact ⟨[], by simp [pieces?], rfl⟩
  | cons c cs ih =>
    obtain ⟨ps, hpieces, hjoined⟩ := ih
    obtain ⟨p, hp, hchar⟩ := exists_piece c (cs.flatMap escape ++ '"' :: rest)
    refine ⟨p :: ps, ?_, ?_⟩
    · rw [List.flatMap_cons, List.append_assoc, hp, hpieces]
      rfl
    · rw [hchar, hjoined]
      rfl

theorem string?_stringText (s : String) (rest : List Char) :
    ∃ cs, (stringText s).toList = '"' :: cs ∧ string? (cs ++ rest) = some (some s, rest) := by
  refine ⟨s.toList.flatMap escape ++ ['"'], by simp [stringText], ?_⟩
  obtain ⟨ps, hpieces, hjoined⟩ := exists_pieces s.toList rest
  rw [List.append_assoc, List.singleton_append, string?, hpieces]
  simp [hjoined]

/-! ## One step of the reader -/

def spaces : List Char := [' ', '\t', '\n', '\r']

theorem skipSpace_cons {c : Char} (h : c ∉ spaces) (cs : List Char) :
    skipSpace (c :: cs) = c :: cs := by
  obtain ⟨blank, tab, newline, carriage⟩ : c ≠ ' ' ∧ c ≠ '\t' ∧ c ≠ '\n' ∧ c ≠ '\r' := by
    simpa [spaces] using h
  simp [skipSpace, blank, tab, newline, carriage]

section
variable (fuel : Nat) {c : Char} {cs rest : List Char} {d : Document}

theorem value?_null :
    value? (fuel + 1) ('n' :: 'u' :: 'l' :: 'l' :: rest) = some (.null, rest) := rfl

theorem value?_true :
    value? (fuel + 1) ('t' :: 'r' :: 'u' :: 'e' :: rest) = some (.bool true, rest) := rfl

theorem value?_false :
    value? (fuel + 1) ('f' :: 'a' :: 'l' :: 's' :: 'e' :: rest) = some (.bool false, rest) := rfl

theorem value?_quote :
    value? (fuel + 1) ('"' :: cs) = (string? cs).map fun (s, rest) => (.string s, rest) := rfl

theorem value?_array_nil : value? (fuel + 1) ('[' :: ']' :: rest) = some (.array [], rest) := rfl

theorem value?_object_nil :
    value? (fuel + 1) ('\x7b' :: '\x7d' :: rest) = some (.object [], rest) := rfl

theorem not_mem_spaces (h : c = '-' ∨ c.isDigit) : c ∉ spaces := by
  intro hspace
  rcases h with rfl | h
  · exact absurd hspace (by decide)
  · have noDigit : spaces.all (fun c => !c.isDigit) := by decide
    have := List.all_eq_true.1 noDigit c hspace
    simp [h] at this

/-- What starts with a sign or a digit is read as a number. -/
theorem value?_of_number? {t : NumberText} (hc : c = '-' ∨ c.isDigit)
    (hread : number? (c :: cs) = some (t, rest)) :
    value? (fuel + 1) (c :: cs) = some (.number t.toNumber?, rest) := by
  rw [value?, skipSpace_cons (not_mem_spaces hc)]
  split
  case h_7 => simp [hread]
  all_goals
    obtain ⟨rfl, -⟩ := List.cons.inj ‹_›
    simp at hc

theorem value?_number (n : Number) (hrest : EndsNumber rest) :
    value? (fuel + 1) (n.text.toList ++ rest) = some (.number n.reread?, rest) := by
  obtain ⟨t, hread, hnumber⟩ := n.number?_text hrest
  obtain ⟨c, cs, htext, hc⟩ := n.head_text
  rw [htext, List.cons_append] at hread ⊢
  rw [value?_of_number? fuel hc hread, hnumber]

theorem value?_string (s : String) :
    value? (fuel + 1) ((stringText s).toList ++ rest) = some (.string (some s), rest) := by
  obtain ⟨cs, htext, hread⟩ := string?_stringText s rest
  rw [htext, List.cons_append, value?_quote, hread]
  rfl

theorem value?_array (space : c ∉ spaces) (notEnd : c ≠ ']') :
    value? (fuel + 1) ('[' :: c :: cs) =
      (items? fuel (c :: cs)).map fun (items, rest) => (.array items, rest) := by
  rw [value?, skipSpace_cons (by decide)]
  simp only [skipSpace_cons space]
  split
  · exact absurd (List.cons.inj ‹_›).1 notEnd
  · rfl

theorem value?_object (space : c ∉ spaces) (notEnd : c ≠ '\x7d') :
    value? (fuel + 1) ('\x7b' :: c :: cs) =
      (members? fuel (c :: cs)).map fun (members, rest) => (.object members, rest) := by
  rw [value?, skipSpace_cons (by decide)]
  simp only [skipSpace_cons space]
  split
  · exact absurd (List.cons.inj ‹_›).1 notEnd
  · rfl

theorem items?_cons (hvalue : value? fuel cs = some (d, ',' :: rest)) :
    items? (fuel + 1) cs = (items? fuel rest).map fun (items, rest) => (d :: items, rest) := by
  rw [items?, hvalue]
  simp only [Option.bind_eq_bind, Option.bind_some, skipSpace_cons (show ',' ∉ spaces by decide)]
  cases items? fuel rest <;> rfl

theorem items?_last (hvalue : value? fuel cs = some (d, ']' :: rest)) :
    items? (fuel + 1) cs = some ([d], rest) := by
  rw [items?, hvalue]
  simp [skipSpace_cons (show ']' ∉ spaces by decide)]

theorem members?_cons (key : String) (hvalue : value? fuel cs = some (d, ',' :: rest)) :
    members? (fuel + 1) ((stringText key).toList ++ ':' :: cs) =
      (members? fuel rest).map fun (members, rest) => ((some key, d) :: members, rest) := by
  obtain ⟨name, htext, hread⟩ := string?_stringText key (':' :: cs)
  rw [htext, List.cons_append, members?, skipSpace_cons (by decide)]
  simp only [Option.bind_eq_bind, Option.bind_some, hread, hvalue,
    skipSpace_cons (show ':' ∉ spaces by decide), skipSpace_cons (show ',' ∉ spaces by decide)]
  cases members? fuel rest <;> rfl

theorem members?_last (key : String) (hvalue : value? fuel cs = some (d, '\x7d' :: rest)) :
    members? (fuel + 1) ((stringText key).toList ++ ':' :: cs) = some ([(some key, d)], rest) := by
  obtain ⟨name, htext, hread⟩ := string?_stringText key (':' :: cs)
  rw [htext, List.cons_append, members?, skipSpace_cons (by decide)]
  simp [hread, hvalue, skipSpace_cons (show ':' ∉ spaces by decide),
    skipSpace_cons (show '\x7d' ∉ spaces by decide)]

end

/-! ## Texts of pieces -/

def spelled (ps : List String) : List Char := ps.flatMap String.toList

theorem spelled_cons (p : String) (ps : List String) :
    spelled (p :: ps) = p.toList ++ spelled ps := rfl

theorem spelled_comma (ps : List String) : spelled ("," :: ps) = ',' :: spelled ps := rfl

theorem spelled_itemPieces_nil (ps : List String) :
    spelled (itemPieces [] ps) = ']' :: spelled ps := rfl

theorem spelled_memberPieces_nil (ps : List String) :
    spelled (memberPieces [] ps) = '\x7d' :: spelled ps := rfl

theorem spelled_member (key : String) (ps : List String) :
    spelled (stringText key :: ":" :: ps) = (stringText key).toList ++ ':' :: spelled ps := rfl

theorem toList_text (j : Json) : j.text.toList = spelled (j.pieces []) := String.toList_join

theorem exists_head_pieces (j : Json) (ps : List String) :
    ∃ c cs, spelled (j.pieces ps) = c :: cs ∧ c ∉ spaces ∧ c ≠ ']' := by
  match j with
  | null => exact ⟨'n', _, rfl, by decide, by decide⟩
  | bool true => exact ⟨'t', _, rfl, by decide, by decide⟩
  | bool false => exact ⟨'f', _, rfl, by decide, by decide⟩
  | number n =>
    obtain ⟨c, cs, htext, hc⟩ := n.head_text
    refine ⟨c, cs ++ spelled ps, by rw [pieces, spelled_cons, htext, List.cons_append], ?_, ?_⟩
    · exact not_mem_spaces hc
    · rintro rfl
      simp at hc
  | string s =>
    obtain ⟨cs, htext, -⟩ := string?_stringText s []
    exact ⟨'"', cs ++ spelled ps, by rw [pieces, spelled_cons, htext, List.cons_append], by decide,
      by decide⟩
  | array [] | array (_ :: _) => exact ⟨'[', _, rfl, by decide, by decide⟩
  | object [] | object ((_, _) :: _) => exact ⟨'\x7b', _, rfl, by decide, by decide⟩

theorem length_lt_cons {p : String} (h : p.toList ≠ []) (ps : List String) :
    (spelled ps).length < (spelled (p :: ps)).length := by
  have := List.length_pos_iff.2 h
  simp only [spelled_cons, List.length_append]
  omega

theorem length_lt_stringText (s : String) (ps : List String) :
    (spelled ps).length < (spelled (stringText s :: ps)).length := by
  obtain ⟨cs, htext, -⟩ := string?_stringText s []
  exact length_lt_cons (by simp [htext]) ps

mutual

theorem length_lt_pieces : ∀ (j : Json) (ps : List String),
    (spelled ps).length < (spelled (j.pieces ps)).length
  | null, ps => length_lt_cons (by decide) ps
  | bool true, ps => length_lt_cons (by decide) ps
  | bool false, ps => length_lt_cons (by decide) ps
  | number n, ps => by
    obtain ⟨c, cs, htext, -⟩ := n.head_text
    exact length_lt_cons (by simp [htext]) ps
  | string s, ps => length_lt_stringText s ps
  | array [], ps => length_lt_cons (by decide) ps
  | array (j :: items), ps => by
    have := length_lt_pieces j (itemPieces items ps)
    have := length_lt_itemPieces items ps
    simp only [pieces, spelled_cons, List.length_append]
    omega
  | object [], ps => length_lt_cons (by decide) ps
  | object ((key, j) :: members), ps => by
    have := length_lt_pieces j (memberPieces members ps)
    have := length_lt_memberPieces members ps
    simp only [pieces, spelled_cons, List.length_append]
    omega

theorem length_lt_itemPieces : ∀ (items : List Json) (ps : List String),
    (spelled ps).length < (spelled (itemPieces items ps)).length
  | [], ps => length_lt_cons (by decide) ps
  | j :: items, ps => by
    have := length_lt_pieces j (itemPieces items ps)
    have := length_lt_itemPieces items ps
    simp only [itemPieces, spelled_cons, List.length_append]
    omega

theorem length_lt_memberPieces : ∀ (members : List (String × Json)) (ps : List String),
    (spelled ps).length < (spelled (memberPieces members ps)).length
  | [], ps => length_lt_cons (by decide) ps
  | (key, j) :: members, ps => by
    have := length_lt_pieces j (memberPieces members ps)
    have := length_lt_memberPieces members ps
    simp only [memberPieces, spelled_cons, List.length_append]
    omega

end

/-! ## Values -/

/-- Fuel for the text of a value is enough to read that text, whatever follows it. -/
def IsReadBack (j : Json) : Prop :=
  ∀ (ps : List String) (fuel : Nat), EndsNumber (spelled ps) →
    (spelled (j.pieces ps)).length ≤ fuel + (spelled ps).length →
      value? fuel (spelled (j.pieces ps)) = some (j.document, spelled ps)

theorem exists_fuel {j : Json} {ps : List String} {fuel : Nat}
    (h : (spelled (j.pieces ps)).length ≤ fuel + (spelled ps).length) : ∃ n, fuel = n + 1 := by
  have := length_lt_pieces j ps
  exact Nat.exists_eq_add_one_of_ne_zero (by omega)

/-- After a value stands a comma or the end of what holds it. -/
theorem endsNumber_cons {p : String} (h : p = "," ∨ p = "]" ∨ p = "\x7d") (ps : List String) :
    EndsNumber (spelled (p :: ps)) := by
  intro c hc
  rcases h with rfl | rfl | rfl
  · obtain rfl : ',' = c := by simpa [spelled_cons] using hc
    decide
  · obtain rfl : ']' = c := by simpa [spelled_cons] using hc
    decide
  · obtain rfl : '\x7d' = c := by simpa [spelled_cons] using hc
    decide

theorem items?_pieces (items : List Json) (all : ∀ j ∈ items, IsReadBack j) {j : Json}
    (hj : IsReadBack j) (ps : List String) {fuel : Nat}
    (hfuel : (spelled (j.pieces (itemPieces items ps))).length ≤ fuel + (spelled ps).length) :
    items? fuel (spelled (j.pieces (itemPieces items ps))) =
      some (j.document :: documentItems items, spelled ps) := by
  induction items generalizing j fuel with
  | nil =>
    -- One step is for the item and one character for the bracket after it.
    have hlength := length_lt_pieces j (itemPieces [] ps)
    have hend := length_lt_itemPieces [] ps
    obtain ⟨fuel, rfl⟩ := Nat.exists_eq_add_one_of_ne_zero (n := fuel) (by omega)
    have hvalue := hj (itemPieces [] ps) fuel (endsNumber_cons (.inr (.inl rfl)) ps) (by omega)
    rw [spelled_itemPieces_nil] at hvalue
    exact items?_last fuel hvalue
  | cons i items ih =>
    have hlength := length_lt_pieces j (itemPieces (i :: items) ps)
    have hcomma := length_lt_cons (p := ",") (by decide) (i.pieces (itemPieces items ps))
    have hend := length_lt_itemPieces (i :: items) ps
    rw [itemPieces] at hlength hend hfuel ⊢
    obtain ⟨fuel, rfl⟩ := Nat.exists_eq_add_one_of_ne_zero (n := fuel) (by omega)
    have hvalue := hj ("," :: i.pieces (itemPieces items ps)) fuel (endsNumber_cons (.inl rfl) _)
      (by omega)
    have hrest : (spelled (i.pieces (itemPieces items ps))).length ≤
        fuel + (spelled ps).length := by
      omega
    have hitems := ih (fun k hk => all k (List.mem_cons_of_mem i hk)) (all i List.mem_cons_self)
      hrest
    rw [spelled_comma] at hvalue
    rw [items?_cons fuel hvalue, hitems]
    rfl

theorem members?_pieces (members : List (String × Json)) (all : ∀ m ∈ members, IsReadBack m.2)
    (key : String) {j : Json} (hj : IsReadBack j) (ps : List String) {fuel : Nat}
    (hfuel : (spelled (stringText key :: ":" :: j.pieces (memberPieces members ps))).length ≤
      fuel + (spelled ps).length) :
    members? fuel (spelled (stringText key :: ":" :: j.pieces (memberPieces members ps))) =
      some ((some key, j.document) :: documentMembers members, spelled ps) := by
  induction members generalizing key j fuel with
  | nil =>
    have hlength := length_lt_pieces j (memberPieces [] ps)
    have hend := length_lt_memberPieces [] ps
    have hcolon := length_lt_cons (p := ":") (by decide) (j.pieces (memberPieces [] ps))
    have hkey := length_lt_stringText key (":" :: j.pieces (memberPieces [] ps))
    obtain ⟨fuel, rfl⟩ := Nat.exists_eq_add_one_of_ne_zero (n := fuel) (by omega)
    have hvalue := hj (memberPieces [] ps) fuel (endsNumber_cons (.inr (.inr rfl)) ps) (by omega)
    rw [spelled_memberPieces_nil] at hvalue
    rw [spelled_member key]
    exact members?_last fuel key hvalue
  | cons m members ih =>
    obtain ⟨name, i⟩ := m
    have hlength := length_lt_pieces j (memberPieces ((name, i) :: members) ps)
    have hcolon := length_lt_cons (p := ":") (by decide)
      (j.pieces (memberPieces ((name, i) :: members) ps))
    have hkey := length_lt_stringText key
      (":" :: j.pieces (memberPieces ((name, i) :: members) ps))
    have hcomma := length_lt_cons (p := ",") (by decide)
      (stringText name :: ":" :: i.pieces (memberPieces members ps))
    have hend := length_lt_memberPieces ((name, i) :: members) ps
    rw [memberPieces] at hlength hcolon hkey hend hfuel ⊢
    obtain ⟨fuel, rfl⟩ := Nat.exists_eq_add_one_of_ne_zero (n := fuel) (by omega)
    have hvalue := hj ("," :: stringText name :: ":" :: i.pieces (memberPieces members ps)) fuel
      (endsNumber_cons (.inl rfl) _) (by omega)
    have hrest : (spelled (stringText name :: ":" :: i.pieces (memberPieces members ps))).length ≤
        fuel + (spelled ps).length := by
      omega
    have hmembers := ih (fun k hk => all k (List.mem_cons_of_mem _ hk)) name
      (all (name, i) List.mem_cons_self) hrest
    rw [spelled_comma] at hvalue
    rw [spelled_member key, members?_cons fuel key hvalue, hmembers]
    rfl

theorem isReadBack_array {j : Json} (hj : IsReadBack j) {items : List Json}
    (all : ∀ i ∈ items, IsReadBack i) : IsReadBack (array (j :: items)) := by
  intro ps fuel hps hfuel
  obtain ⟨fuel, rfl⟩ := exists_fuel hfuel
  have hbracket := length_lt_cons (p := "[") (by decide) (j.pieces (itemPieces items ps))
  rw [pieces] at hfuel ⊢
  have hle : (spelled (j.pieces (itemPieces items ps))).length ≤ fuel + (spelled ps).length := by
    omega
  have hitems := items?_pieces items all hj ps hle
  obtain ⟨c, cs, htext, space, notEnd⟩ := exists_head_pieces j (itemPieces items ps)
  rw [htext] at hitems
  have bracket : spelled ("[" :: j.pieces (itemPieces items ps)) = '[' :: c :: cs := by
    rw [spelled_cons, htext]
    rfl
  rw [bracket, value?_array fuel space notEnd, hitems]
  rfl

theorem isReadBack_object (key : String) {j : Json} (hj : IsReadBack j)
    {members : List (String × Json)} (all : ∀ m ∈ members, IsReadBack m.2) :
    IsReadBack (object ((key, j) :: members)) := by
  intro ps fuel hps hfuel
  obtain ⟨fuel, rfl⟩ := exists_fuel hfuel
  have hbrace := length_lt_cons (p := "\x7b") (by decide)
    (stringText key :: ":" :: j.pieces (memberPieces members ps))
  rw [pieces] at hfuel ⊢
  have hle : (spelled (stringText key :: ":" :: j.pieces (memberPieces members ps))).length ≤
      fuel + (spelled ps).length := by
    omega
  have hmembers := members?_pieces members all key hj ps hle
  obtain ⟨cs, htext, -⟩ := string?_stringText key []
  rw [spelled_cons, htext, List.cons_append] at hmembers
  have brace : spelled ("\x7b" :: stringText key :: ":" :: j.pieces (memberPieces members ps)) =
      '\x7b' :: '"' :: (cs ++ spelled (":" :: j.pieces (memberPieces members ps))) := by
    rw [spelled_cons, spelled_cons, htext]
    rfl
  rw [brace, value?_object fuel (by decide) (by decide), hmembers]
  rfl

/-- A value that is no array and no object is read in one step. -/
theorem isReadBack_of_step {j : Json}
    (step : ∀ fuel ps, EndsNumber (spelled ps) →
      value? (fuel + 1) (spelled (j.pieces ps)) = some (j.document, spelled ps)) :
    IsReadBack j := by
  intro ps fuel hps hfuel
  obtain ⟨fuel, rfl⟩ := exists_fuel hfuel
  exact step fuel ps hps

theorem isReadBack (j : Json) : IsReadBack j := by
  induction j using Json.induction with
  | null => exact isReadBack_of_step fun fuel _ _ => value?_null fuel
  | bool b =>
    cases b with
    | true => exact isReadBack_of_step fun fuel _ _ => value?_true fuel
    | false => exact isReadBack_of_step fun fuel _ _ => value?_false fuel
  | number n => exact isReadBack_of_step fun fuel _ hps => value?_number fuel n hps
  | string s => exact isReadBack_of_step fun fuel _ _ => value?_string fuel s
  | array items ih =>
    cases items with
    | nil => exact isReadBack_of_step fun fuel _ _ => value?_array_nil fuel
    | cons j items =>
      obtain ⟨first, rest⟩ := List.forall_mem_cons.1 ih
      exact isReadBack_array first rest
  | object members ih =>
    cases members with
    | nil => exact isReadBack_of_step fun fuel _ _ => value?_object_nil fuel
    | cons m members =>
      obtain ⟨first, rest⟩ := List.forall_mem_cons.1 ih
      exact isReadBack_object m.1 first rest

end Reader

/-- **Reading back.** The text of a value is a document: the value itself, with each number read
from its own text. -/
theorem ofText?_text (j : Json) : Document.ofText? j.text = some j.document := by
  have endless : EndsNumber (Reader.spelled []) := fun _ h => nomatch h
  have read := Reader.isReadBack j [] (j.text.toList.length + 1) endless
    (by rw [Reader.toList_text]; omega)
  rw [← Reader.toList_text] at read
  rw [Document.ofText?, read]
  rfl

end RecordRules.Json
