import RecordRules.Proofs.Splitting

/-!
# Texts with white space between them

White space ends every lexeme before it. So the tokens of two texts with white space between them
are those of the first and then those of the second, and an error of the second text stays its
error; what belongs to the second text only starts later.
-/

namespace RecordRules

namespace Token

theorem utf8ByteSize_eq_byteSize (text : String) : text.utf8ByteSize = byteSize text.toList := by
  rw [← utf8ByteSize_ofList, String.ofList_toList]

theorem IsSpace.startsApart_append {space : List Char} (white : IsSpace space) (hne : space ≠ [])
    (rest : List Char) : StartsApart (space ++ rest) := by
  obtain ⟨c, space, rfl⟩ := List.exists_cons_of_ne_nil hne
  have hc := white c List.mem_cons_self
  exact startsApart_cons.2 (goesOn_eq_false_of_isWhiteSpace hc)

theorem tokenize_append_space {first space : String} {ts : List Token}
    (h : tokenize first = .ok ts) (hne : space ≠ "") (white : IsSpace space.toList)
    (second : String) :
    tokenize (first ++ space ++ second) =
      (ts ++ ·) <$> shift (first ++ space).utf8ByteSize (tokenize second) := by
  have hne : space.toList ≠ [] := by simpa using hne
  have apart := white.startsApart_append hne second.toList
  have size : 0 + byteSize first.toList + byteSize space.toList =
      (first ++ space).utf8ByteSize + 0 := by
    simp [utf8ByteSize_eq_byteSize, byteSize_append]
  unfold tokenize at h ⊢
  rw [String.toList_append, String.toList_append, List.append_assoc,
    scan_append (Nat.zero_le _) h apart, scan_space white, size, scan_add]

/-- **Spaced texts.** White space after a text that splits into tokens keeps it apart from all that
follows: the tokens of the text behind it, or the error of that text, come after those tokens, later
by the bytes in front of them. -/
theorem tokenize_spaced {first space : String} {ts : List Token} (h : tokenize first = .ok ts)
    (hne : space ≠ "") (white : IsSpace space.toList) (second : String) :
    (∀ us, tokenize second = .ok us → tokenize (first ++ space ++ second) =
      .ok (ts ++ us.map fun t => ⟨t.kind, (first ++ space).utf8ByteSize + t.offset⟩)) ∧
    ∀ e, tokenize second = .error e → tokenize (first ++ space ++ second) =
      .error ⟨(first ++ space).utf8ByteSize + e.offset, e.fragment⟩ := by
  have both := tokenize_append_space h hne white second
  constructor
  · intro us hus
    rw [both, hus]
    rfl
  · intro e he
    rw [both, he]
    rfl

/-- A sign that would be one with the sign behind the white space, in a text with letters and white
space of several bytes, and a number that runs into a word. -/
theorem tokenize_spaced_signs :
    tokenize "é >\u3000= 5" =
        .ok [⟨.word "é", 0⟩, ⟨.comparator .gt, 3⟩, ⟨.comparator .eq, 7⟩, ⟨.word "5", 9⟩] ∧
      tokenize "é >\u30005.5abc" = .error ⟨8, ".5abc"⟩ := by
  have first : tokenize "é >" = .ok [⟨.word "é", 0⟩, ⟨.comparator .gt, 3⟩] :=
    eq_ok_of_toOption (by decide +kernel)
  have white : IsSpace "\u3000".toList := by
    intro c hc
    obtain rfl : c = '\u3000' := by simpa using hc
    decide
  have spaced := tokenize_spaced first (by decide) white
  constructor
  · exact (spaced "= 5").1 [⟨.comparator .eq, 0⟩, ⟨.word "5", 2⟩]
      (eq_ok_of_toOption (by decide +kernel))
  · exact (spaced "5.5abc").2 ⟨1, ".5abc"⟩ (by rfl)

end Token

end RecordRules
