import Mathlib.Data.List.TakeWhile
import CqlStatements.Proofs.Qualifier.Matching

/-!
# Names and their last parts

A name is a run of word characters and dots, and only what stands behind its last dot qualifies columns.
The last part is a run of word characters, whatever stands in front of it.
-/
namespace CqlStatements.Qualifier

theorem isNameChar_iff {c : Char} : isNameChar c = true ↔ isWordChar c = true ∨ c = '.' := by
  rw [isNameChar, Bool.or_eq_true, beq_iff_eq]

theorem isWordChar_of_no_dot {name : List Char} (name_chars : ∀ c ∈ name, isNameChar c = true)
    (no_dot : '.' ∉ name) : ∀ c ∈ name, isWordChar c = true := by
  intro c mem
  refine (isNameChar_iff.mp (name_chars c mem)).resolve_right ?_
  intro dot
  rw [dot] at mem
  exact no_dot mem

theorem takeWhile_cons_nameChar {c : Char} (name_char : isNameChar c = true) (rest : List Char) :
    (c :: rest).takeWhile isNameChar = c :: rest.takeWhile isNameChar := by
  rw [List.takeWhile_cons_of_pos name_char]

theorem BeginsWord.takeWhile_ne_nil {text : List Char} (begins : BeginsWord text) :
    text.takeWhile isNameChar ≠ [] := by
  obtain ⟨c, rest, rfl, word⟩ := begins
  rw [takeWhile_cons_nameChar (isNameChar_iff.mpr (Or.inl word))]
  simp

/-- The part is what a name has behind its last dot. -/
def AfterLastDot (name part : List Char) : Prop :=
  '.' ∉ part ∧ (name = part ∨ ∃ front, name = front ++ '.' :: part)

theorem takeWhile_reverse_of_no_dot {part : List Char} (no_dot : '.' ∉ part) (rest : List Char) :
    (part.reverse ++ rest).takeWhile (· != '.') = part.reverse ++ rest.takeWhile (· != '.') := by
  rw [List.takeWhile_append_of_pos]
  intro c mem
  rw [bne_iff_ne]
  intro dot
  rw [dot, List.mem_reverse] at mem
  exact no_dot mem

theorem lastPart_of_dot {front part : List Char} (no_dot : '.' ∉ part) :
    lastPart (front ++ '.' :: part) = part := by
  rw [lastPart, List.reverse_append, List.reverse_cons, List.append_assoc,
    takeWhile_reverse_of_no_dot no_dot]
  simp

theorem lastPart_of_no_dot {part : List Char} (no_dot : '.' ∉ part) : lastPart part = part := by
  rw [lastPart, ← List.append_nil part.reverse, takeWhile_reverse_of_no_dot no_dot]
  simp

/-- A name without a dot is all last part, any other is split at its last dot. -/
theorem afterLastDot_cases (name : List Char) : ∃ part, AfterLastDot name part := by
  induction name with
  | nil => exact ⟨[], by simp, Or.inl rfl⟩
  | cons c name ih =>
      obtain ⟨part, no_dot, split⟩ := ih
      rcases split with rfl | ⟨front, rfl⟩
      · by_cases dot : c = '.'
        · rw [dot]
          exact ⟨name, no_dot, Or.inr ⟨[], rfl⟩⟩
        · refine ⟨c :: name, ?_, Or.inl rfl⟩
          rw [List.mem_cons, not_or]
          exact ⟨Ne.symm dot, no_dot⟩
      · exact ⟨part, no_dot, Or.inr ⟨c :: front, rfl⟩⟩

theorem afterLastDot_iff {name part : List Char} :
    AfterLastDot name part ↔ part = lastPart name := by
  have forward : ∀ part, AfterLastDot name part → part = lastPart name := by
    intro part after
    obtain ⟨no_dot, rfl | ⟨front, rfl⟩⟩ := after
    · rw [lastPart_of_no_dot no_dot]
    · rw [lastPart_of_dot no_dot]
  constructor
  · exact forward part
  · intro same
    obtain ⟨other, after⟩ := afterLastDot_cases name
    rw [same, ← forward other after]
    exact after

theorem lastPart_append_dot (front part : List Char) :
    lastPart (front ++ '.' :: part) = lastPart part := by
  symm
  rw [← afterLastDot_iff]
  obtain ⟨no_dot, split⟩ := afterLastDot_iff.mpr (rfl : lastPart part = lastPart part)
  refine ⟨no_dot, Or.inr ?_⟩
  rcases split with same | ⟨inner, same⟩
  · exact ⟨front, by rw [← same]⟩
  · refine ⟨front ++ '.' :: inner, ?_⟩
    rw [List.append_assoc, List.cons_append, ← same]

theorem lastPart_cons_of_dot_mem {c : Char} {name : List Char} (dot : '.' ∈ name) :
    lastPart (c :: name) = lastPart name := by
  obtain ⟨front, part, rfl⟩ := List.append_of_mem dot
  rw [← List.cons_append, lastPart_append_dot, lastPart_append_dot]

/-- The last part of a run of name characters is a run of word characters. -/
theorem isWordChar_of_mem_lastPart {text : List Char} :
    ∀ c ∈ lastPart (text.takeWhile isNameChar), isWordChar c = true := by
  have after := afterLastDot_iff.mpr (rfl : lastPart (text.takeWhile isNameChar) = _)
  refine isWordChar_of_no_dot ?_ after.1
  intro c mem
  have in_name : c ∈ text.takeWhile isNameChar := by
    obtain ⟨-, same | ⟨front, same⟩⟩ := after
    · rw [same]
      exact mem
    · rw [same, List.mem_append, List.mem_cons]
      exact Or.inr (Or.inr mem)
  exact List.mem_takeWhile_imp in_name

end CqlStatements.Qualifier
