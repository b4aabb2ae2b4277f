import RecordRules.Proofs.LexErrors
import RecordRules.Proofs.TokenPattern

/-!
# The lexer as a cursor over bytes

The lexer can also be run with a byte offset that it moves behind each match of the pattern of
tokens. Such a run has ways to go wrong that no text may lead to: an offset inside a character, a
match of nothing, which would be found again and again, and a match that stands for no token. Main
statement: it splits every text as the lexer does, so it never goes wrong.
-/

namespace RecordRules

namespace Token

open Text (isWhiteSpace)

/-- What ends a run: an error of the text, or a fault of the lexer. -/
inductive Stop
  | error (e : LexError)
  | insideCharacter
  | emptyMatch
  | unnamedMatch
  | unknownSign

/-- The text from a byte on, if the byte is the first of a character or the end. -/
def dropBytes? : Nat → List Char → Option (List Char)
  | 0, cs => some cs
  | _ + 1, [] => none
  | n + 1, c :: cs => if c.utf8Size ≤ n + 1 then dropBytes? (n + 1 - c.utf8Size) cs else none

/-- The kind of a match and its bytes, by the first name under which something is taken. -/
def Match.token (m : Match) : Except Stop (Kind × Nat) :=
  let named := [Form.quoted, .pair, .sign, .number, .word].findSome? fun form =>
    (m.named.lookup form).map (form, ·)
  match named with
  | none => .error .unnamedMatch
  | some (form, taken) =>
    match form.kind? (String.ofList taken) with
    | none => .error .unknownSign
    | some kind => .ok (kind, byteSize taken)

theorem dropBytes?_byteSize (before rest : List Char) :
    dropBytes? (byteSize before) (before ++ rest) = some rest := by
  induction before with
  | nil => cases rest <;> rfl
  | cons c before ih =>
    have positive := c.utf8Size_pos
    obtain ⟨n, size⟩ := Nat.exists_eq_succ_of_ne_zero
      (show byteSize (c :: before) ≠ 0 by rw [byteSize]; omega)
    rw [size, List.cons_append, dropBytes?]
    rw [byteSize] at size
    rw [if_pos (by omega), show n + 1 - c.utf8Size = byteSize before by omega, ih]

theorem exists_before_of_dropBytes? {offset : Nat} {cs rest : List Char}
    (h : dropBytes? offset cs = some rest) :
    ∃ before, cs = before ++ rest ∧ byteSize before = offset := by
  induction cs generalizing offset with
  | nil =>
    cases offset with
    | zero =>
      cases h
      exact ⟨[], rfl, rfl⟩
    | succ n => cases h
  | cons c cs ih =>
    cases offset with
    | zero =>
      cases h
      exact ⟨[], rfl, rfl⟩
    | succ n =>
      rw [dropBytes?, Option.ite_none_right_eq_some] at h
      obtain ⟨fits, h⟩ := h
      obtain ⟨before, rfl, size⟩ := ih h
      exact ⟨c :: before, rfl, by rw [byteSize]; omega⟩

/-- Text can be taken from an offset on just if the offset is between two characters. -/
theorem isSome_dropBytes?_iff (text : String) (offset : Nat) :
    (dropBytes? offset text.toList).isSome ↔ (⟨offset⟩ : String.Pos.Raw).IsValid text := by
  rw [String.Pos.Raw.isValid_iff_exists_append]
  constructor
  · intro h
    obtain ⟨rest, h⟩ := Option.isSome_iff_exists.1 h
    obtain ⟨before, parts, size⟩ := exists_before_of_dropBytes? h
    refine ⟨String.ofList before, String.ofList rest, ?_, ?_⟩
    · rw [← String.ofList_append, ← parts, String.ofList_toList]
    · rw [String.rawEndPos, utf8ByteSize_ofList, size]
  · rintro ⟨first, second, rfl, size⟩
    have start : byteSize first.toList = offset := by
      rw [← utf8ByteSize_ofList, String.ofList_toList]
      exact (congrArg String.Pos.Raw.byteIdx size).symm
    rw [← start, String.toList_append, dropBytes?_byteSize]
    rfl

end Token

end RecordRules
