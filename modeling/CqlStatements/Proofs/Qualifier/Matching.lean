import Mathlib.Data.List.Basic
import CqlStatements.Qualifier

/-!
# Qualified columns at the front of a text

A comparison goes letter by letter, the cut behind it goes by bytes. The two come apart only at a Kelvin
sign, which is one letter and three bytes. The cut then ends inside a character, and there is no answer,
or it ends in front of another letter of the name, and there is no dot. So a qualified column is found
exactly where the text spells the table and goes on with a dot and a word.
-/
namespace CqlStatements.Qualifier

theorem isWordChar_iff (c : Char) :
    isWordChar c = true ↔
      (65 ≤ c.toNat ∧ c.toNat ≤ 90) ∨ (97 ≤ c.toNat ∧ c.toNat ≤ 122) ∨
        (48 ≤ c.toNat ∧ c.toNat ≤ 57) ∨ c.toNat = 95 := by
  have underscore : c = '_' ↔ c.toNat = 95 := by
    rw [← Char.toNat_inj]
    rfl
  have ranges : isWordChar c =
      (decide ('A'.val ≤ c.val ∧ c.val ≤ 'Z'.val) ||
        (decide ('a'.val ≤ c.val) && decide (c.val ≤ 'z'.val)) ||
        (decide ('0'.val ≤ c.val) && decide (c.val ≤ '9'.val)) || c == '_') := rfl
  simp only [ranges, Bool.or_eq_true, Bool.and_eq_true, decide_eq_true_eq, beq_iff_eq, underscore,
    UInt32.le_iff_toNat_le, or_assoc]
  rfl

theorem toNat_toLower (c : Char) :
    c.toLower.toNat = if 65 ≤ c.toNat ∧ c.toNat ≤ 90 then c.toNat + 32 else c.toNat := by
  have upper : ('A'.val ≤ c.val ∧ c.val ≤ 'Z'.val) ↔ 65 ≤ c.toNat ∧ c.toNat ≤ 90 := by
    simp only [UInt32.le_iff_toNat_le]
    rfl
  change Char.toNat (dite ('A'.val ≤ c.val ∧ c.val ≤ 'Z'.val) _ _) = _
  by_cases h : 65 ≤ c.toNat ∧ c.toNat ≤ 90
  · rw [dif_pos (upper.mpr h), if_pos h]
    change (c.val + 32).toNat = c.toNat + 32
    rw [UInt32.toNat_add]
    change (c.toNat + 32) % 2 ^ 32 = c.toNat + 32
    omega
  · rw [dif_neg (mt upper.mp h), if_neg h]

theorem isWordChar_toLower (c : Char) : isWordChar c.toLower = isWordChar c := by
  rw [Bool.eq_iff_iff, isWordChar_iff, isWordChar_iff, toNat_toLower]
  split <;> omega

theorem isWordChar_of_isSpacing {c : Char} (spacing : isSpacing c = true) : isWordChar c = false := by
  simp only [isSpacing, Bool.or_eq_true, beq_iff_eq] at spacing
  rcases spacing with ((rfl | rfl) | rfl) | rfl <;> decide

theorem utf8Size_of_isWordChar {c : Char} (word : isWordChar c = true) : c.utf8Size = 1 := by
  rw [isWordChar_iff] at word
  rw [Char.utf8Size_eq_one_iff, UInt32.le_iff_toNat_le]
  change c.toNat ≤ 127
  omega

theorem byteLength_of_word {name : List Char} (word : ∀ c ∈ name, isWordChar c = true) :
    byteLength name = name.length := by
  induction name with
  | nil => rfl
  | cons c name ih =>
      rw [List.forall_mem_cons] at word
      simp only [byteLength, List.length_cons]
      rw [utf8Size_of_isWordChar word.1, ih word.2]
      omega

/-- The two texts have the same letters, but for the case of ASCII letters. -/
def Spells (name text : List Char) : Prop := text.map Char.toLower = name.map Char.toLower

instance (name text : List Char) : Decidable (Spells name text) :=
  inferInstanceAs (Decidable (_ = _))

theorem Spells.length_eq {name text : List Char} (spells : Spells name text) :
    text.length = name.length := by
  have same := congrArg List.length spells
  simpa only [List.length_map] using same

theorem Spells.cons_iff {letter c : Char} {name text : List Char} :
    Spells (letter :: name) (c :: text) ↔ c.toLower = letter.toLower ∧ Spells name text := by
  simp only [Spells, List.map_cons, List.cons.injEq]

theorem Spells.word {name text : List Char} (spells : Spells name text)
    (word : ∀ c ∈ name, isWordChar c = true) : ∀ c ∈ text, isWordChar c = true := by
  induction text generalizing name with
  | nil => simp
  | cons c text ih =>
      cases name with
      | nil => simp [Spells] at spells
      | cons letter name =>
          rw [Spells.cons_iff] at spells
          rw [List.forall_mem_cons] at word ⊢
          have first : isWordChar c = true := by
            rw [← isWordChar_toLower, spells.1, isWordChar_toLower]
            exact word.1
          exact ⟨first, ih spells.2 word.2⟩

/-- The text begins with the table, a dot and a word. -/
def Qualified (table text : List Char) : Prop :=
  ∃ name c rest, text = name ++ '.' :: c :: rest ∧ Spells table name ∧ isWordChar c = true

/-- The text begins with a word character. -/
def BeginsWord (text : List Char) : Prop := ∃ c rest, text = c :: rest ∧ isWordChar c = true

theorem beginsWord_of_spells {name text : List Char} (spells : Spells name text)
    (word : ∀ c ∈ name, isWordChar c = true) (nonempty : name ≠ []) (rest : List Char) :
    BeginsWord (text ++ rest) := by
  cases text with
  | nil =>
      have length := spells.length_eq
      exact absurd (List.eq_nil_of_length_eq_zero length.symm) nonempty
  | cons first text =>
      have first_word := spells.word word first (by simp)
      exact ⟨first, text ++ rest, rfl, first_word⟩

theorem Qualified.beginsWord {table text : List Char} (qualified : Qualified table text)
    (word : ∀ c ∈ table, isWordChar c = true) (nonempty : table ≠ []) : BeginsWord text := by
  obtain ⟨name, c, rest, rfl, spells, -⟩ := qualified
  exact beginsWord_of_spells spells word nonempty _

theorem Qualified.append {table text : List Char} (qualified : Qualified table text)
    (rest : List Char) : Qualified table (text ++ rest) := by
  obtain ⟨name, c, behind, rfl, spells, column⟩ := qualified
  refine ⟨name, c, behind ++ rest, ?_, spells, column⟩
  rw [List.append_assoc, List.cons_append, List.cons_append]

/-- A letter of a name is met by a word character or by the Kelvin sign. -/
theorem sameLetter_cases {letter c : Char} (same : sameLetter letter c = true)
    (word : isWordChar letter = true) :
    (c.toLower = letter.toLower ∧ isWordChar c = true) ∨ c = kelvinSign := by
  simp only [sameLetter, Bool.or_eq_true, Bool.and_eq_true, beq_iff_eq] at same
  rcases same with same | ⟨kelvin, -⟩
  · left
    refine ⟨same, ?_⟩
    rw [← isWordChar_toLower, same, isWordChar_toLower]
    exact word
  · right
    exact kelvin

theorem not_sameLetter_dot {letter : Char} (word : isWordChar letter = true) :
    sameLetter letter '.' = false := by
  rw [Bool.eq_false_iff]
  intro same
  rcases sameLetter_cases same word with ⟨-, dot⟩ | dot
  · exact absurd dot (by decide)
  · exact absurd dot (by decide)

/-- The bytes count down the letters still to be compared. They run out in front of a dot only if each
character so far was a single byte. -/
theorem spells_of_dropBytes {name text rest : List Char} {n : ℕ}
    (word : ∀ c ∈ name, isWordChar c = true) (same : agree name text = true) (le : n ≤ name.length)
    (found : dropBytes text n = .rest ('.' :: rest)) :
    n = name.length ∧ ∃ spelled, text = spelled ++ '.' :: rest ∧ Spells name spelled := by
  induction name generalizing text n with
  | nil =>
      obtain rfl : n = 0 := Nat.le_zero.mp le
      simp only [dropBytes, Match.rest.injEq] at found
      exact ⟨rfl, [], found, rfl⟩
  | cons letter name ih =>
      rw [List.forall_mem_cons] at word
      cases text with
      | nil => cases n <;> simp [dropBytes] at found
      | cons c text =>
          simp only [agree, Bool.and_eq_true] at same
          cases n with
          | zero =>
              -- the name goes on, so the dot would have been compared with a letter
              simp only [dropBytes, Match.rest.injEq, List.cons.injEq] at found
              rw [found.1, not_sameLetter_dot word.1] at same
              exact absurd same.1 (by decide)
          | succ n =>
              simp only [dropBytes] at found
              split at found
              · simp at found
              · have pos := c.utf8Size_pos
                simp only [List.length_cons] at le ⊢
                obtain ⟨count, spelled, rfl, spells⟩ := ih word.2 same.2 (by omega) found
                have single : c.utf8Size = 1 := by omega
                rcases sameLetter_cases same.1 word.1 with ⟨lower, -⟩ | rfl
                · exact ⟨by omega, c :: spelled, rfl, Spells.cons_iff.mpr ⟨lower, spells⟩⟩
                · exact absurd single (by decide)

theorem agree_of_spells {name spelled : List Char} (spells : Spells name spelled)
    (rest : List Char) : agree name (spelled ++ rest) = true := by
  induction name generalizing spelled with
  | nil => simp [agree]
  | cons letter name ih =>
      cases spelled with
      | nil => simp [Spells] at spells
      | cons c spelled =>
          rw [Spells.cons_iff] at spells
          simp only [List.cons_append, agree, sameLetter, spells.1, beq_self_eq_true, Bool.true_or,
            Bool.true_and]
          exact ih spells.2

theorem dropBytes_length {spelled : List Char} (word : ∀ c ∈ spelled, isWordChar c = true)
    (rest : List Char) : dropBytes (spelled ++ rest) spelled.length = .rest rest := by
  induction spelled with
  | nil => simp [dropBytes]
  | cons c spelled ih =>
      rw [List.forall_mem_cons] at word
      simp only [List.cons_append, List.length_cons, dropBytes, utf8Size_of_isWordChar word.1]
      rw [if_neg (by omega), Nat.add_sub_cancel]
      exact ih word.2

theorem qualifiedColumn_of_spells {table name : List Char} {c : Char} {rest : List Char}
    (word : ∀ c ∈ table, isWordChar c = true) (spells : Spells table name)
    (column : isWordChar c = true) :
    qualifiedColumn table (name ++ '.' :: c :: rest) = .rest (c :: rest) := by
  have matched : matchName table (name ++ '.' :: c :: rest) = .rest ('.' :: c :: rest) := by
    rw [matchName, if_pos (agree_of_spells spells _), byteLength_of_word word, ← spells.length_eq]
    exact dropBytes_length (spells.word word) _
  simp only [qualifiedColumn, matched, column, if_true]

theorem qualifiedColumn_eq_rest_iff {table text rest : List Char}
    (word : ∀ c ∈ table, isWordChar c = true) :
    qualifiedColumn table text = .rest rest ↔
      ∃ name c tail, text = name ++ '.' :: c :: tail ∧ Spells table name ∧ isWordChar c = true ∧
        rest = c :: tail := by
  constructor
  · intro found
    unfold qualifiedColumn at found
    split at found
    · rename_i c tail matched
      split at found
      · rename_i column
        simp only [Match.rest.injEq] at found
        unfold matchName at matched
        split at matched
        · rename_i same
          rw [byteLength_of_word word] at matched
          obtain ⟨-, name, rfl, spells⟩ := spells_of_dropBytes word same (Nat.le_refl _) matched
          exact ⟨name, c, tail, rfl, spells, column, found.symm⟩
        · simp at matched
      · simp at found
    all_goals simp at found
  · intro found
    obtain ⟨name, c, tail, rfl, spells, column, rfl⟩ := found
    exact qualifiedColumn_of_spells word spells column

theorem exists_qualifiedColumn_iff {table text : List Char}
    (word : ∀ c ∈ table, isWordChar c = true) :
    (∃ rest, qualifiedColumn table text = .rest rest) ↔ Qualified table text := by
  simp only [qualifiedColumn_eq_rest_iff word, Qualified]
  constructor
  · intro found
    obtain ⟨rest, name, c, tail, same, spells, column, -⟩ := found
    exact ⟨name, c, tail, same, spells, column⟩
  · intro qualified
    obtain ⟨name, c, tail, same, spells, column⟩ := qualified
    exact ⟨c :: tail, name, c, tail, same, spells, column, rfl⟩

theorem not_qualified_of_mismatch {table text : List Char}
    (word : ∀ c ∈ table, isWordChar c = true) (missed : qualifiedColumn table text = .mismatch) :
    ¬Qualified table text := by
  intro qualified
  obtain ⟨rest, found⟩ := (exists_qualifiedColumn_iff word).mpr qualified
  rw [missed] at found
  exact Match.noConfusion found

instance (table text : List Char) : Decidable (Qualified table text) :=
  decidable_of_iff
    (Spells table (text.take table.length) ∧ (text.drop table.length).head? = some '.' ∧
      (text.drop (table.length + 1)).head?.any isWordChar = true)
    (by
      constructor
      · intro found
        obtain ⟨spells, dot, column⟩ := found
        obtain ⟨rest, drop_eq⟩ := List.head?_eq_some_iff.mp dot
        have next : text.drop (table.length + 1) = rest := by
          rw [← List.drop_drop, drop_eq, List.drop_one, List.tail_cons]
        rw [next] at column
        cases rest with
        | nil => simp at column
        | cons c rest =>
            refine ⟨text.take table.length, c, rest, ?_, spells, by simpa using column⟩
            rw [← drop_eq, List.take_append_drop]
      · intro qualified
        obtain ⟨name, c, rest, rfl, spells, column⟩ := qualified
        rw [← spells.length_eq]
        refine ⟨by rw [List.take_left]; exact spells, by rw [List.drop_left]; rfl, ?_⟩
        rw [← List.drop_drop, List.drop_left]
        exact column)

/-- The cut ends inside a character only behind a Kelvin sign that was taken for a letter. -/
theorem kelvinSign_mem_of_dropBytes {name text : List Char} {n : ℕ}
    (word : ∀ c ∈ name, isWordChar c = true) (same : agree name text = true) (le : n ≤ name.length)
    (inside : dropBytes text n = .insideCharacter) : kelvinSign ∈ text.take name.length := by
  induction name generalizing text n with
  | nil =>
      obtain rfl : n = 0 := Nat.le_zero.mp le
      simp [dropBytes] at inside
  | cons letter name ih =>
      rw [List.forall_mem_cons] at word
      cases text with
      | nil => cases n <;> simp [dropBytes] at inside
      | cons c text =>
          simp only [agree, Bool.and_eq_true] at same
          rw [List.length_cons, List.take_succ_cons]
          rcases sameLetter_cases same.1 word.1 with ⟨-, column⟩ | rfl
          · cases n with
            | zero => simp [dropBytes] at inside
            | succ n =>
                simp only [dropBytes, utf8Size_of_isWordChar column] at inside
                rw [if_neg (by omega), Nat.add_sub_cancel] at inside
                exact List.mem_cons_of_mem _ (ih word.2 same.2 (Nat.le_of_succ_le_succ le) inside)
          · exact List.mem_cons_self

theorem kelvinSign_mem_of_insideCharacter {table text : List Char}
    (word : ∀ c ∈ table, isWordChar c = true)
    (inside : qualifiedColumn table text = .insideCharacter) :
    kelvinSign ∈ text.take table.length := by
  unfold qualifiedColumn at inside
  split at inside
  · split at inside <;> simp at inside
  · simp at inside
  · simp at inside
  · rename_i matched
    unfold matchName at matched
    split at matched
    · rename_i same
      exact kelvinSign_mem_of_dropBytes word same (Nat.le_of_eq (byteLength_of_word word)) matched
    · simp at matched

end CqlStatements.Qualifier
