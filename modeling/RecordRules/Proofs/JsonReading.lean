import RecordRules.Proofs.JsonGrammar

/-!
# The reader reads the grammar

A value is read up to where the grammar has it end, if nothing goes on a number there, and what is
read is a text of its value. Main statement: a text is read as a value just if it is a text of that
value between white space.
-/

namespace RecordRules.Json

open Reader (skipSpace spaces value? items? members? skipSpace_cons)

/-! ## White space -/

section
variable {space cs rest : List Char}

theorem mem_spaces_iff {c : Char} :
    c ∈ spaces ↔ (c == ' ' || c == '\t' || c == '\n' || c == '\r') = true := by
  simp [spaces, or_assoc]

theorem skipSpace_append (blank : IsBlank space) (cs : List Char) :
    skipSpace (space ++ cs) = skipSpace cs :=
  List.dropWhile_append_of_pos fun c hc => mem_spaces_iff.1 (blank c hc)

theorem exists_blank (cs : List Char) : ∃ space, IsBlank space ∧ cs = space ++ skipSpace cs := by
  refine ⟨_, fun c hc => mem_spaces_iff.2 ?_, List.takeWhile_append_dropWhile.symm⟩
  exact (List.all_eq_true.1 List.all_takeWhile) c hc

theorem skipSpace_skipSpace (cs : List Char) : skipSpace (skipSpace cs) = skipSpace cs := by
  obtain ⟨space, blank, parts⟩ := exists_blank cs
  calc skipSpace (skipSpace cs) = skipSpace (space ++ skipSpace cs) :=
        (skipSpace_append blank _).symm
    _ = skipSpace cs := by rw [← parts]

theorem value?_skipSpace (fuel : Nat) (cs : List Char) :
    value? fuel (skipSpace cs) = value? fuel cs := by
  cases fuel with
  | zero => rfl
  | succ fuel => rw [value?, value?, skipSpace_skipSpace]

theorem items?_skipSpace (fuel : Nat) (cs : List Char) :
    items? fuel (skipSpace cs) = items? fuel cs := by
  cases fuel with
  | zero => rfl
  | succ fuel => rw [items?, items?, value?_skipSpace]

theorem members?_skipSpace (fuel : Nat) (cs : List Char) :
    members? fuel (skipSpace cs) = members? fuel cs := by
  cases fuel with
  | zero => rfl
  | succ fuel => rw [members?, members?, skipSpace_skipSpace]

theorem value?_blank (blank : IsBlank space) (fuel : Nat) (cs : List Char) :
    value? fuel (space ++ cs) = value? fuel cs := by
  rw [← value?_skipSpace, skipSpace_append blank, value?_skipSpace]

theorem endsNumber_blank (blank : IsBlank space) (ends : EndsNumber rest) :
    EndsNumber (space ++ rest) := by
  cases space with
  | nil => exact ends
  | cons c space =>
    intro d hd
    obtain rfl : c = d := by simpa using hd
    have marks : spaces.all (fun c => !c.isDigit && !(['.', 'e', 'E'].contains c)) := by decide
    have := List.all_eq_true.1 marks c (blank c List.mem_cons_self)
    simpa using this

theorem endsNumber_mark {c : Char} (h : c = ',' ∨ c = ']' ∨ c = '\x7d') (cs : List Char) :
    EndsNumber (c :: cs) := by
  intro d hd
  obtain rfl : c = d := by simpa using hd
  rcases h with rfl | rfl | rfl <;> decide

end

/-! ## Texts are read -/

/-- A text is read as the document, whatever follows it that goes on no number. -/
def Reads (cs : List Char) (d : Document) : Prop :=
  ∀ {rest : List Char} {fuel : Nat}, EndsNumber rest → cs.length ≤ fuel →
    value? fuel (cs ++ rest) = some (d, rest)

section
variable {cs : List Char} {d : Document}

theorem WritesString.exists_start {s : Option String} (h : WritesString s cs) :
    ∃ body, cs = '"' :: body := by
  obtain ⟨body, rfl, -⟩ := h.string?
  exact ⟨body, rfl⟩

theorem WritesNumber.exists_start {t : NumberText} (h : WritesNumber t cs) :
    ∃ c body, cs = c :: body ∧ (c = '-' ∨ c.isDigit) := by
  obtain ⟨grammatical, es, -, rfl⟩ := h
  exact Literal.exists_signed_eq_cons _ grammatical.ne_nil grammatical.digits _

theorem TextOf.exists_start (h : TextOf cs d) :
    ∃ c body, cs = c :: body ∧ c ∉ spaces ∧ c ≠ ']' := by
  cases h with
  | null => exact ⟨'n', _, rfl, by decide, by decide⟩
  | bool b => cases b with
    | true => exact ⟨'t', _, rfl, by decide, by decide⟩
    | false => exact ⟨'f', _, rfl, by decide, by decide⟩
  | number written =>
    obtain ⟨c, body, rfl, hc⟩ := written.exists_start
    refine ⟨c, body, rfl, Reader.not_mem_spaces hc, ?_⟩
    rintro rfl
    simp at hc
  | string written =>
    obtain ⟨body, rfl⟩ := written.exists_start
    exact ⟨'"', body, rfl, by decide, by decide⟩
  | array => exact ⟨'[', _, rfl, by decide, by decide⟩
  | object => exact ⟨'\x7b', _, rfl, by decide, by decide⟩

/-- A value is read if its text starts with some character and one step of the reader reads it. -/
theorem reads_of_step (start : cs ≠ [])
    (step : ∀ rest fuel, EndsNumber rest → cs.length ≤ fuel + 1 →
      value? (fuel + 1) (cs ++ rest) = some (d, rest)) : Reads cs d := by
  intro rest fuel ends enough
  have := List.length_pos_iff.2 start
  obtain ⟨less, rfl⟩ := Nat.exists_eq_add_one_of_ne_zero (n := fuel) (by omega)
  exact step rest less ends enough

theorem reads_number {t : NumberText} (written : WritesNumber t cs) :
    Reads cs (.number t.toNumber?) := by
  obtain ⟨c, body, rfl, hc⟩ := written.exists_start
  exact reads_of_step (List.cons_ne_nil _ _) fun rest fuel ends _ =>
    Reader.value?_of_number? fuel hc (written.number? ends)

theorem reads_string {s : Option String} (written : WritesString s cs) :
    Reads cs (.string s) := by
  obtain ⟨body, rfl, read⟩ := written.string?
  refine reads_of_step (List.cons_ne_nil _ _) fun rest fuel _ _ => ?_
  rw [List.cons_append, Reader.value?_quote, read, Option.map_some]

end

/-! ### Items and members -/

section
variable {i : Item} {m : Member} {d : Document} {fuel : Nat} {c : Char} (rest : List Char)

/-- One item is read up to the mark behind it. -/
theorem Reads.item (reads : Reads i.core d) (spaced : i.IsSpaced) (enough : i.chars.length ≤ fuel)
    (mark : c = ',' ∨ c = ']' ∨ c = '\x7d') :
    value? fuel (i.chars ++ c :: rest) = some (d, i.after ++ c :: rest) ∧
      skipSpace (i.after ++ c :: rest) = c :: rest := by
  obtain ⟨before, after⟩ := spaced
  have core : i.core.length ≤ fuel := by
    simp only [Item.chars, List.length_append] at enough
    omega
  have read := reads (endsNumber_blank after (endsNumber_mark mark rest)) core
  have space : c ∉ spaces := by rcases mark with rfl | rfl | rfl <;> decide
  constructor
  · rw [Item.chars, List.append_assoc, List.append_assoc, value?_blank before, read]
  · rw [skipSpace_append after, skipSpace_cons space]

theorem items?_bracket (reads : Reads i.core d) (spaced : i.IsSpaced)
    (enough : i.chars.length ≤ fuel) :
    items? (fuel + 1) (i.chars ++ ']' :: rest) = some ([d], rest) := by
  obtain ⟨read, behind⟩ := reads.item rest spaced enough (.inr (.inl rfl))
  rw [items?, read]
  simp [behind]

theorem items?_comma (reads : Reads i.core d) (spaced : i.IsSpaced)
    (enough : i.chars.length ≤ fuel) : items? (fuel + 1) (i.chars ++ ',' :: rest) =
      (items? fuel rest).map fun (ds, rest) => (d :: ds, rest) := by
  obtain ⟨read, behind⟩ := reads.item rest spaced enough (.inl rfl)
  rw [items?, read]
  simp only [Option.bind_eq_bind, Option.bind_some, behind]
  cases items? fuel rest <;> rfl

/-- A member and those behind it: more after a comma, or none at the end of the object. -/
def withMember? (fuel : Nat) (member : Option String × Document) (cs : List Char) :
    Option (List (Option String × Document) × List Char) :=
  match skipSpace cs with
  | ',' :: rest => do
    let (members, rest) ← members? fuel rest
    return (member :: members, rest)
  | '\x7d' :: rest => some ([member], rest)
  | _ => none

theorem Member.length_item_le (m : Member) : m.item.chars.length ≤ m.chars.length := by
  simp only [Member.chars, List.length_append, List.length_cons]
  omega

theorem members?_name (spaced : m.IsSpaced) (named : WritesString m.key m.name) :
    members? (fuel + 1) (m.chars ++ rest) =
      (value? fuel (m.item.chars ++ rest)).bind fun (d, rest) =>
        withMember? fuel (m.key, d) rest := by
  obtain ⟨before, after, -⟩ := spaced
  obtain ⟨body, name, key⟩ := named.string?
  have chars : m.chars ++ rest = m.before ++ ('"' :: (body ++ (m.after ++ ':' ::
      (m.item.chars ++ rest)))) := by simp [Member.chars, name]
  rw [chars, members?, skipSpace_append before, skipSpace_cons (by decide)]
  simp only [key, Option.bind_eq_bind, Option.bind_some, skipSpace_append after,
    skipSpace_cons (show ':' ∉ spaces by decide)]
  rfl

theorem members?_brace (reads : Reads m.item.core d) (spaced : m.IsSpaced)
    (named : WritesString m.key m.name) (enough : m.item.chars.length ≤ fuel) :
    members? (fuel + 1) (m.chars ++ '\x7d' :: rest) = some ([(m.key, d)], rest) := by
  obtain ⟨read, behind⟩ := reads.item rest spaced.2.2 enough (.inr (.inr rfl))
  rw [members?_name _ spaced named, read, Option.bind_some]
  dsimp only
  rw [withMember?, behind]
  rfl

theorem members?_comma (reads : Reads m.item.core d) (spaced : m.IsSpaced)
    (named : WritesString m.key m.name) (enough : m.item.chars.length ≤ fuel) :
    members? (fuel + 1) (m.chars ++ ',' :: rest) =
      (members? fuel rest).map fun (ms, rest) => ((m.key, d) :: ms, rest) := by
  obtain ⟨read, behind⟩ := reads.item rest spaced.2.2 enough (.inl rfl)
  rw [members?_name _ spaced named, read, Option.bind_some]
  simp only [withMember?, behind]
  cases members? fuel rest <;> rfl

end

theorem items?_chars {first : Item} {rest : List Item} (spaced : ∀ i ∈ first :: rest, i.IsSpaced)
    (each : ∀ i ∈ first :: rest, Reads i.core i.value) {fuel : Nat} (after : List Char)
    (enough : (first.chars ++ continued (rest.map Item.chars)).length < fuel) :
    items? fuel (first.chars ++ (continued (rest.map Item.chars) ++ ']' :: after)) =
      some ((first :: rest).map Item.value, after) := by
  induction rest generalizing first fuel with
  | nil =>
    obtain ⟨less, rfl⟩ := Nat.exists_eq_add_one_of_ne_zero (n := fuel) (by omega)
    rw [List.length_append] at enough
    exact items?_bracket after (each first List.mem_cons_self) (spaced first List.mem_cons_self)
      (by omega)
  | cons second rest ih =>
    obtain ⟨less, rfl⟩ := Nat.exists_eq_add_one_of_ne_zero (n := fuel) (by omega)
    obtain ⟨spaced, others⟩ := List.forall_mem_cons.1 spaced
    obtain ⟨reads, each⟩ := List.forall_mem_cons.1 each
    rw [List.map_cons, List.length_append, length_continued_cons] at enough
    rw [List.map_cons, continued_cons, items?_comma _ reads spaced (by omega),
      ih others each (by omega)]
    rfl

theorem members?_chars {first : Member} {rest : List Member}
    (spaced : ∀ m ∈ first :: rest, m.IsSpaced)
    (named : ∀ m ∈ first :: rest, WritesString m.key m.name)
    (each : ∀ m ∈ first :: rest, Reads m.item.core m.item.value) {fuel : Nat} (after : List Char)
    (enough : (first.chars ++ continued (rest.map Member.chars)).length < fuel) :
    members? fuel (first.chars ++ (continued (rest.map Member.chars) ++ '\x7d' :: after)) =
      some ((first :: rest).map Member.toPair, after) := by
  have item := first.length_item_le
  induction rest generalizing first fuel with
  | nil =>
    obtain ⟨less, rfl⟩ := Nat.exists_eq_add_one_of_ne_zero (n := fuel) (by omega)
    rw [List.length_append] at enough
    exact members?_brace after (each first List.mem_cons_self) (spaced first List.mem_cons_self)
      (named first List.mem_cons_self) (by omega)
  | cons second rest ih =>
    obtain ⟨less, rfl⟩ := Nat.exists_eq_add_one_of_ne_zero (n := fuel) (by omega)
    obtain ⟨spaced, others⟩ := List.forall_mem_cons.1 spaced
    obtain ⟨named, names⟩ := List.forall_mem_cons.1 named
    obtain ⟨reads, each⟩ := List.forall_mem_cons.1 each
    rw [List.map_cons, List.length_append, length_continued_cons] at enough
    rw [List.map_cons, continued_cons, members?_comma _ reads spaced named (by omega),
      ih others names each (by omega) second.length_item_le]
    rfl

/-! ### Arrays and objects -/

section
variable (fuel : Nat) {cs rest : List Char}

theorem value?_bracket (start : (skipSpace cs).head? ≠ some ']') : value? (fuel + 1) ('[' :: cs) =
    (items? fuel cs).map fun (items, rest) => (.array items, rest) := by
  rw [value?, ← items?_skipSpace fuel cs]
  simp only [skipSpace_cons (show '[' ∉ spaces by decide)]
  split
  · rename_i closed
    exact absurd (by rw [closed]; rfl) start
  · rfl

theorem value?_brace (start : (skipSpace cs).head? ≠ some '\x7d') :
    value? (fuel + 1) ('\x7b' :: cs) =
      (members? fuel cs).map fun (members, rest) => (.object members, rest) := by
  rw [value?, ← members?_skipSpace fuel cs]
  simp only [skipSpace_cons (show '\x7b' ∉ spaces by decide)]
  split
  · rename_i closed
    exact absurd (by rw [closed]; rfl) start
  · rfl

end

theorem reads_array {items : List Item} {body : List Char} (spaced : ∀ i ∈ items, i.IsSpaced)
    (each : ∀ i ∈ items, TextOf i.core i.value) (reads : ∀ i ∈ items, Reads i.core i.value)
    (laid : Separated (items.map Item.chars) body) :
    Reads ('[' :: (body ++ [']'])) (.array (items.map Item.value)) := by
  refine reads_of_step (List.cons_ne_nil _ _) fun rest fuel _ enough => ?_
  rw [List.cons_append, List.append_assoc, List.singleton_append]
  cases items with
  | nil =>
    obtain ⟨blank⟩ := laid
    rw [value?, skipSpace_cons (by decide)]
    simp only [skipSpace_append blank, skipSpace_cons (show ']' ∉ spaces by decide)]
    rfl
  | cons first items =>
    obtain ⟨c, core, text, space, notEnd⟩ := (each first List.mem_cons_self).exists_start
    have before := (spaced first List.mem_cons_self).1
    rw [List.map_cons] at laid
    obtain _ | ⟨chars, others⟩ := laid
    rw [List.append_assoc, value?_bracket, items?_chars spaced reads rest]
    · rfl
    · simp only [List.length_cons, List.length_append, List.length_nil] at enough ⊢
      omega
    · rw [Item.chars, text, List.append_assoc, skipSpace_append before, List.cons_append,
        List.cons_append, skipSpace_cons space]
      simpa using notEnd

theorem reads_object {members : List Member} {body : List Char}
    (spaced : ∀ m ∈ members, m.IsSpaced) (named : ∀ m ∈ members, WritesString m.key m.name)
    (reads : ∀ m ∈ members, Reads m.item.core m.item.value)
    (laid : Separated (members.map Member.chars) body) :
    Reads ('\x7b' :: (body ++ ['\x7d'])) (.object (members.map Member.toPair)) := by
  refine reads_of_step (List.cons_ne_nil _ _) fun rest fuel _ enough => ?_
  rw [List.cons_append, List.append_assoc, List.singleton_append]
  cases members with
  | nil =>
    obtain ⟨blank⟩ := laid
    rw [value?, skipSpace_cons (by decide)]
    simp only [skipSpace_append blank, skipSpace_cons (show '\x7d' ∉ spaces by decide)]
    rfl
  | cons first members =>
    obtain ⟨name, text⟩ := (named first List.mem_cons_self).exists_start
    have before := (spaced first List.mem_cons_self).1
    rw [List.map_cons] at laid
    obtain _ | ⟨chars, others⟩ := laid
    rw [List.append_assoc, value?_brace, members?_chars spaced named reads rest]
    · rfl
    · simp only [List.length_cons, List.length_append, List.length_nil] at enough ⊢
      omega
    · rw [Member.chars, text, List.append_assoc, skipSpace_append before, List.cons_append,
        List.cons_append, skipSpace_cons (by decide)]
      simp

theorem TextOf.reads {cs : List Char} {d : Document} (h : TextOf cs d) : Reads cs d := by
  induction h with
  | null => exact reads_of_step (by decide) fun _ fuel _ _ => Reader.value?_null fuel
  | bool b => cases b with
    | true => exact reads_of_step (by decide) fun _ fuel _ _ => Reader.value?_true fuel
    | false => exact reads_of_step (by decide) fun _ fuel _ _ => Reader.value?_false fuel
  | number written => exact reads_number written
  | string written => exact reads_string written
  | array spaced each laid ih => exact reads_array spaced each ih laid
  | object spaced named _ laid ih => exact reads_object spaced named ih laid

/-! ## What is read is a text -/

def Finds (cs : List Char) (d : Document) (rest : List Char) : Prop :=
  ∃ space core, IsBlank space ∧ cs = space ++ (core ++ rest) ∧ TextOf core d

def FindsItems (cs : List Char) (ds : List Document) (rest : List Char) : Prop :=
  ∃ first items, ds = (first :: items).map Item.value ∧ (∀ i ∈ first :: items, i.IsSpaced) ∧
    (∀ i ∈ first :: items, TextOf i.core i.value) ∧
      cs = first.chars ++ (continued (items.map Item.chars) ++ ']' :: rest)

def FindsMembers (cs : List Char) (ms : List (Option String × Document)) (rest : List Char) :
    Prop :=
  ∃ first members, ms = (first :: members).map Member.toPair ∧
    (∀ m ∈ first :: members, m.IsSpaced) ∧ (∀ m ∈ first :: members, WritesString m.key m.name) ∧
      (∀ m ∈ first :: members, TextOf m.item.core m.item.value) ∧
        cs = first.chars ++ (continued (members.map Member.chars) ++ '\x7d' :: rest)

section
variable {cs rest : List Char}

theorem FindsItems.exists_array {ds : List Document} (h : FindsItems cs ds rest) :
    ∃ core, '[' :: cs = core ++ rest ∧ TextOf core (.array ds) := by
  obtain ⟨first, items, rfl, spaced, each, rfl⟩ := h
  exact ⟨_, by simp, .array spaced each (.cons first.chars (items.map Item.chars))⟩

theorem FindsMembers.exists_object {ms : List (Option String × Document)}
    (h : FindsMembers cs ms rest) :
    ∃ core, '\x7b' :: cs = core ++ rest ∧ TextOf core (.object ms) := by
  obtain ⟨first, members, rfl, spaced, named, each, rfl⟩ := h
  exact ⟨_, by simp, .object spaced named each (.cons first.chars (members.map Member.chars))⟩

theorem exists_array_nil (h : skipSpace cs = ']' :: rest) :
    ∃ core, '[' :: cs = core ++ rest ∧ TextOf core (.array []) := by
  obtain ⟨space, blank, parts⟩ := exists_blank cs
  rw [h] at parts
  refine ⟨'[' :: (space ++ [']']), by simp [parts], ?_⟩
  exact @TextOf.array [] _ (List.forall_mem_nil _) (List.forall_mem_nil _) (.empty blank)

theorem exists_object_nil (h : skipSpace cs = '\x7d' :: rest) :
    ∃ core, '\x7b' :: cs = core ++ rest ∧ TextOf core (.object []) := by
  obtain ⟨space, blank, parts⟩ := exists_blank cs
  rw [h] at parts
  refine ⟨'\x7b' :: (space ++ ['\x7d']), by simp [parts], ?_⟩
  exact @TextOf.object [] _ (List.forall_mem_nil _) (List.forall_mem_nil _)
    (List.forall_mem_nil _) (.empty blank)

end

/-- With so much fuel the reader finds nothing but texts of what it gives. -/
structure IsSound (fuel : Nat) : Prop where
  value {cs rest : List Char} {d : Document} (read : value? fuel cs = some (d, rest)) :
    Finds cs d rest
  items {cs rest : List Char} {ds : List Document} (read : items? fuel cs = some (ds, rest)) :
    FindsItems cs ds rest
  members {cs rest : List Char} {ms : List (Option String × Document)}
    (read : members? fuel cs = some (ms, rest)) : FindsMembers cs ms rest

namespace IsSound

variable {fuel : Nat} {cs rest : List Char} {d : Document} (sound : IsSound fuel)

theorem zero : IsSound 0 where
  value read := by cases read
  items read := by cases read
  members read := by cases read

section
include sound

theorem item (read : value? fuel cs = some (d, rest)) :
    ∃ i : Item, i.value = d ∧ i.IsSpaced ∧ TextOf i.core i.value ∧
      cs = i.chars ++ skipSpace rest := by
  obtain ⟨before, core, blank, rfl, text⟩ := sound.value read
  obtain ⟨after, blank', parts⟩ := exists_blank rest
  refine ⟨⟨before, core, after, d⟩, rfl, ⟨blank, blank'⟩, text, ?_⟩
  simp only [Item.chars, List.append_assoc, ← parts]

theorem items_succ {ds : List Document} (read : items? (fuel + 1) cs = some (ds, rest)) :
    FindsItems cs ds rest := by
  simp only [items?, Option.bind_eq_bind, Option.bind_eq_some_iff] at read
  obtain ⟨⟨d, after⟩, value, read⟩ := read
  obtain ⟨i, rfl, spaced, text, rfl⟩ := sound.item value
  split at read
  · rename_i behind
    simp only [Option.bind_eq_some_iff] at read
    obtain ⟨⟨more, last⟩, others, read⟩ := read
    cases read
    obtain ⟨second, items, rfl, spaced', each, rfl⟩ := sound.items others
    refine ⟨i, second :: items, rfl, List.forall_mem_cons.2 ⟨spaced, spaced'⟩,
      List.forall_mem_cons.2 ⟨text, each⟩, ?_⟩
    rw [behind, List.map_cons, continued_cons]
  · rename_i behind
    cases read
    refine ⟨i, [], rfl, by simpa using spaced, by simpa using text, ?_⟩
    rw [behind]
    rfl
  · cases read

/-- A key is read, then the colon and an item behind it. -/
theorem member {ms : List (Option String × Document)}
    (read : members? (fuel + 1) cs = some (ms, rest)) :
    ∃ (m : Member) (after : List Char), m.IsSpaced ∧ WritesString m.key m.name ∧
      TextOf m.item.core m.item.value ∧ cs = m.chars ++ skipSpace after ∧
        withMember? fuel m.toPair after = some (ms, rest) := by
  obtain ⟨before, blank, parts⟩ := exists_blank cs
  rw [members?] at read
  split at read
  · rename_i quote
    rw [quote] at parts
    simp only [Option.bind_eq_bind, Option.bind_eq_some_iff] at read
    obtain ⟨⟨key, afterKey⟩, string, read⟩ := read
    obtain ⟨name, rfl, named⟩ := of_string? string
    obtain ⟨after, blank', parts'⟩ := exists_blank afterKey
    split at read
    · rename_i colon
      rw [colon] at parts'
      obtain ⟨⟨d, afterValue⟩, value, next⟩ := Option.bind_eq_some_iff.1 read
      obtain ⟨i, rfl, spaced, text, rfl⟩ := sound.item value
      refine ⟨⟨before, '"' :: name, after, key, i⟩, afterValue, ⟨blank, blank', spaced⟩, named,
        text, ?_, next⟩
      simp [parts, parts', Member.chars]
    · cases read
  · cases read

theorem members_succ {ms : List (Option String × Document)}
    (read : members? (fuel + 1) cs = some (ms, rest)) : FindsMembers cs ms rest := by
  obtain ⟨m, after, spaced, named, text, rfl, next⟩ := sound.member read
  unfold withMember? at next
  split at next
  · rename_i behind
    simp only [Option.bind_eq_bind, Option.bind_eq_some_iff] at next
    obtain ⟨⟨more, last⟩, others, next⟩ := next
    cases next
    obtain ⟨second, members, rfl, spaced', names, each, rfl⟩ := sound.members others
    refine ⟨m, second :: members, rfl, List.forall_mem_cons.2 ⟨spaced, spaced'⟩,
      List.forall_mem_cons.2 ⟨named, names⟩, List.forall_mem_cons.2 ⟨text, each⟩, ?_⟩
    rw [behind, List.map_cons, continued_cons]
  · rename_i behind
    cases next
    refine ⟨m, [], rfl, by simpa using spaced, by simpa using named, by simpa using text, ?_⟩
    rw [behind]
    rfl
  · cases next

theorem value_succ (read : value? (fuel + 1) cs = some (d, rest)) : Finds cs d rest := by
  obtain ⟨space, blank, parts⟩ := exists_blank cs
  suffices ∃ core, skipSpace cs = core ++ rest ∧ TextOf core d by
    obtain ⟨core, start, text⟩ := this
    exact ⟨space, core, blank, by rw [← start, ← parts], text⟩
  rw [value?] at read
  split at read
  case h_1 start =>
    cases read
    exact ⟨_, start, .null⟩
  case h_2 start =>
    cases read
    exact ⟨_, start, .bool true⟩
  case h_3 start =>
    cases read
    exact ⟨_, start, .bool false⟩
  case h_4 start =>
    obtain ⟨⟨s, after⟩, string, read⟩ := Option.map_eq_some_iff.1 read
    cases read
    obtain ⟨body, rfl, written⟩ := of_string? string
    exact ⟨_, start, .string written⟩
  case h_5 start =>
    rw [start]
    split at read
    · rename_i closed
      cases read
      exact exists_array_nil closed
    · rw [items?_skipSpace] at read
      obtain ⟨⟨items, after⟩, found, read⟩ := Option.map_eq_some_iff.1 read
      cases read
      exact (sound.items found).exists_array
  case h_6 start =>
    rw [start]
    split at read
    · rename_i closed
      cases read
      exact exists_object_nil closed
    · rw [members?_skipSpace] at read
      obtain ⟨⟨members, after⟩, found, read⟩ := Option.map_eq_some_iff.1 read
      cases read
      exact (sound.members found).exists_object
  case h_7 =>
    obtain ⟨⟨t, after⟩, number, read⟩ := Option.map_eq_some_iff.1 read
    cases read
    obtain ⟨core, start, written⟩ := of_number? number
    exact ⟨core, start, .number written⟩

end

theorem all (fuel : Nat) : IsSound fuel := by
  induction fuel with
  | zero => exact zero
  | succ fuel ih => exact ⟨ih.value_succ, ih.items_succ, ih.members_succ⟩

end IsSound

/-! ## Whole texts -/

/-- **The grammar is what is read.** A text is read as a document just if it is a text of that
document between white space. -/
theorem ofText?_eq_some_iff {text : String} {d : Document} : Document.ofText? text = some d ↔
    ∃ i : Item, i.value = d ∧ i.IsSpaced ∧ TextOf i.core i.value ∧ text.toList = i.chars := by
  unfold Document.ofText?
  constructor
  · intro read
    dsimp only at read
    split at read
    · rename_i d' rest value
      split at read
      · rename_i ended
        cases read
        obtain ⟨i, same, spaced, written, chars⟩ := (IsSound.all _).item value
        refine ⟨i, same, spaced, written, ?_⟩
        rw [chars, List.isEmpty_iff.1 ended, List.append_nil]
      · cases read
    · cases read
  · rintro ⟨i, rfl, ⟨before, after⟩, written, chars⟩
    have ends : EndsNumber (i.after ++ []) := endsNumber_blank after fun _ h => nomatch h
    have enough : i.core.length ≤ text.toList.length + 1 := by
      simp only [chars, Item.chars, List.length_append]
      omega
    have read : value? (text.toList.length + 1) text.toList = some (i.value, i.after ++ []) :=
      calc value? (text.toList.length + 1) text.toList
        _ = value? (text.toList.length + 1) (i.before ++ (i.core ++ (i.after ++ []))) := by
          rw [List.append_nil]
          exact congrArg _ chars
        _ = some (i.value, i.after ++ []) := by rw [value?_blank before, written.reads ends enough]
    simp only [read, skipSpace_append after]
    rfl

end RecordRules.Json
