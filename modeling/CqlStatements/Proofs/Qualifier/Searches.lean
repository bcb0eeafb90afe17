import CqlStatements.Proofs.Qualifier.Clauses
import CqlStatements.Proofs.Qualifier.Names
import CqlStatements.Proofs.Qualifier.Deletion

/-!
# Searches before and after the deletion

A qualifier begins at a boundary and a word stands behind its dot. Inside a word the two texts therefore
run alike up to the end of the word, and no spacing is lost. So a keyword clause is there before the
deletion exactly if it is there after it. Its name is a text of its own for the deletion: it may lose
qualifiers, but never its last part.
-/
namespace CqlStatements.Qualifier

/-- A pass that begins behind a word character. -/
def StrippedInWord (table text out : List Char) : Prop :=
  ∃ letter, isWordChar letter = true ∧ Stripped table (some letter) text out

variable {table text out : List Char} {previous : Option Char}

theorem StrippedInWord.cases (stripped : StrippedInWord table text out) :
    (text = [] ∧ out = []) ∨
      ∃ c rest out', text = c :: rest ∧ out = c :: out' ∧ Stripped table (some c) rest out' := by
  obtain ⟨letter, letter_word, stripped⟩ := stripped
  cases stripped with
  | nil => exact Or.inl ⟨rfl, rfl⟩
  | keep kept tail => exact Or.inr ⟨_, _, _, rfl, rfl, tail⟩
  | drop bound =>
      rw [boundary_some, letter_word] at bound
      exact absurd bound (by decide)

theorem Stripped.beginsWord_iff (word : ∀ c ∈ table, isWordChar c = true) (nonempty : table ≠ [])
    (stripped : Stripped table previous text out) : BeginsWord text ↔ BeginsWord out := by
  induction stripped with
  | nil => rfl
  | keep kept tail ih => rw [beginsWord_cons, beginsWord_cons]
  | @drop previous text name c rest out bound split spells column tail ih =>
      have qualified : Qualified table text := ⟨name, c, rest, split, spells, column⟩
      have before := qualified.beginsWord word nonempty
      exact iff_of_true before (ih.mp (beginsWord_cons.mpr column))

theorem BeginsWord.dropWhile_isSpacing (begins : BeginsWord text) :
    text.dropWhile isSpacing = text := by
  obtain ⟨c, rest, rfl, word⟩ := begins
  rw [List.dropWhile_cons_of_neg]
  intro spacing
  rw [isWordChar_of_isSpacing spacing] at word
  exact absurd word (by decide)

theorem Stripped.dropWhile_isSpacing (word : ∀ c ∈ table, isWordChar c = true)
    (nonempty : table ≠ []) (bound : boundary previous = true)
    (stripped : Stripped table previous text out) :
    Stripped table none (text.dropWhile isSpacing) (out.dropWhile isSpacing) := by
  induction stripped with
  | nil => exact .nil
  | @keep previous c text out kept tail ih =>
      by_cases spacing : isSpacing c = true
      · rw [List.dropWhile_cons_of_pos spacing, List.dropWhile_cons_of_pos spacing]
        apply ih
        rw [boundary_some, isWordChar_of_isSpacing spacing, Bool.not_false]
      · rw [List.dropWhile_cons_of_neg spacing, List.dropWhile_cons_of_neg spacing]
        exact (Stripped.keep kept tail).congr bound
  | @drop previous text name c rest out bound' split spells column tail ih =>
      have whole := Stripped.drop bound' split spells column tail
      have qualified : Qualified table text := ⟨name, c, rest, split, spells, column⟩
      have before := qualified.beginsWord word nonempty
      have after := (whole.beginsWord_iff word nonempty).mp before
      rw [before.dropWhile_isSpacing, after.dropWhile_isSpacing]
      exact whole.congr bound

theorem rel_afterKeyword? {letters : List Char} (word : ∀ c ∈ letters, isWordChar c = true)
    (stripped : StrippedInWord table text out) :
    Option.Rel (StrippedInWord table) (afterKeyword? letters text) (afterKeyword? letters out) := by
  induction letters generalizing text out with
  | nil => exact .some stripped
  | cons letter letters ih =>
      rw [List.forall_mem_cons] at word
      rcases stripped.cases with ⟨rfl, rfl⟩ | ⟨c, rest, out', rfl, rfl, tail⟩
      · exact .none
      · simp only [afterKeyword?, beq_iff_eq]
        split
        · rename_i same
          have is_word : isWordChar c = true := by
            rw [← isWordChar_toLower, same]
            exact word.1
          exact ih word.2 ⟨c, is_word, tail⟩
        · exact .none

theorem rel_afterSpacing? (word : ∀ c ∈ table, isWordChar c = true) (nonempty : table ≠ [])
    (stripped : StrippedInWord table text out) :
    Option.Rel (Stripped table none) (afterSpacing? text) (afterSpacing? out) := by
  rcases stripped.cases with ⟨rfl, rfl⟩ | ⟨c, rest, out', rfl, rfl, tail⟩
  · exact .none
  · simp only [afterSpacing?]
    split
    · rename_i spacing
      have bound : boundary (some c) = true := by
        rw [boundary_some, isWordChar_of_isSpacing spacing, Bool.not_false]
      exact .some (tail.dropWhile_isSpacing word nonempty bound)
    · exact .none

theorem rel_or {α β : Type} {related : α → β → Prop} {x x' : Option α} {y y' : Option β}
    (first : Option.Rel related x y) (second : Option.Rel related x' y') :
    Option.Rel related (x.or x') (y.or y') := by
  cases first with
  | none => exact second
  | some held => exact .some held

theorem rel_bind {α β γ δ : Type} {related : α → β → Prop} {related' : γ → δ → Prop}
    {x : Option α} {y : Option β} {f : α → Option γ} {g : β → Option δ}
    (first : Option.Rel related x y)
    (next : ∀ a b, related a b → Option.Rel related' (f a) (g b)) :
    Option.Rel related' (x.bind f) (y.bind g) := by
  cases first with
  | none => exact .none
  | some held => exact next _ _ held

/-- A clause that begins with a kept character has the same keyword before and after. -/
theorem rel_afterClause? {first second : String} (keywords : Keywords first second)
    (word : ∀ c ∈ table, isWordChar c = true) (nonempty : table ≠ []) {c : Char}
    (is_word : isWordChar c = true) (tail : Stripped table (some c) text out) :
    Option.Rel (Stripped table none) (afterClause? first second (c :: text))
      (afterClause? first second (c :: out)) := by
  have keyword : ∀ key ∈ [first, second], Option.Rel (StrippedInWord table)
      (afterKeyword? key.toList (c :: text)) (afterKeyword? key.toList (c :: out)) := by
    intro key mem
    obtain ⟨some_letter, letters⟩ := keywords.2 key mem
    cases key_eq : key.toList with
    | nil => exact absurd key_eq some_letter
    | cons letter rest =>
        rw [key_eq, List.forall_mem_cons] at letters
        simp only [afterKeyword?]
        split
        · exact rel_afterKeyword? (fun d in_rest => (letters.2 d in_rest).2) ⟨c, is_word, tail⟩
        · exact .none
  refine rel_bind (rel_or (keyword first (by simp)) (keyword second (by simp))) ?_
  intro rest rest' stripped
  exact rel_afterSpacing? word nonempty stripped

/-- Inside a word both names go on to a dot, or neither does. -/
theorem StrippedInWord.dot_mem_iff (stripped : StrippedInWord table text out) :
    '.' ∈ text.takeWhile isNameChar ↔ '.' ∈ out.takeWhile isNameChar := by
  induction text generalizing out with
  | nil =>
      rcases stripped.cases with ⟨-, rfl⟩ | ⟨c, rest, out', same, -, -⟩
      · rfl
      · simp at same
  | cons first text ih =>
      rcases stripped.cases with ⟨same, -⟩ | ⟨c, rest, out', same, rfl, tail⟩
      · simp at same
      · obtain ⟨rfl, rfl⟩ := List.cons.inj same
        by_cases name_char : isNameChar first = true
        · rw [takeWhile_cons_nameChar name_char, takeWhile_cons_nameChar name_char]
          rcases isNameChar_iff.mp name_char with is_word | rfl
          · rw [List.mem_cons, List.mem_cons, ih ⟨first, is_word, tail⟩]
          · exact iff_of_true List.mem_cons_self List.mem_cons_self
        · rw [List.takeWhile_cons_of_neg name_char, List.takeWhile_cons_of_neg name_char]

/-- The deletion takes nothing off the last part of a name. -/
theorem Stripped.lastPart_eq (word : ∀ c ∈ table, isWordChar c = true)
    (stripped : Stripped table previous text out) :
    lastPart (text.takeWhile isNameChar) = lastPart (out.takeWhile isNameChar) := by
  induction stripped with
  | nil => rfl
  | @keep previous c text out kept tail ih =>
      by_cases name_char : isNameChar c = true
      · rw [takeWhile_cons_nameChar name_char, takeWhile_cons_nameChar name_char]
        rcases isNameChar_iff.mp name_char with is_word | rfl
        · have same_dots := StrippedInWord.dot_mem_iff ⟨c, is_word, tail⟩
          by_cases dots : '.' ∈ text.takeWhile isNameChar
          · rw [lastPart_cons_of_dot_mem dots, lastPart_cons_of_dot_mem (same_dots.mp dots), ih]
          · have no_dots := mt same_dots.mpr dots
            rw [lastPart_of_no_dot dots, lastPart_of_no_dot no_dots] at ih
            rw [ih]
        · have dot_text := lastPart_append_dot [] (text.takeWhile isNameChar)
          have dot_out := lastPart_append_dot [] (out.takeWhile isNameChar)
          rw [List.nil_append] at dot_text dot_out
          rw [dot_text, dot_out, ih]
      · rw [List.takeWhile_cons_of_neg name_char, List.takeWhile_cons_of_neg name_char]
  | @drop previous text name c rest out bound split spells column tail ih =>
      have name_chars : ∀ d ∈ name, isNameChar d = true := by
        intro d mem
        exact isNameChar_iff.mpr (Or.inl (spells.word word d mem))
      rw [split, List.takeWhile_append_of_pos name_chars, takeWhile_cons_nameChar (by decide),
        lastPart_append_dot, ih]

theorem Stripped.takeWhile_eq_nil_iff (word : ∀ c ∈ table, isWordChar c = true)
    (nonempty : table ≠ []) (stripped : Stripped table previous text out) :
    text.takeWhile isNameChar = [] ↔ out.takeWhile isNameChar = [] := by
  have same_start := stripped.beginsWord_iff word nonempty
  cases stripped with
  | nil => rfl
  | @keep _ c text out kept tail =>
      by_cases name_char : isNameChar c = true
      · simp only [takeWhile_cons_nameChar name_char, reduceCtorEq]
      · rw [List.takeWhile_cons_of_neg name_char, List.takeWhile_cons_of_neg name_char]
  | @drop _ _ name c rest _ bound split spells column tail =>
      have qualified : Qualified table text := ⟨name, c, rest, split, spells, column⟩
      have before := qualified.beginsWord word nonempty
      have after := same_start.mp before
      exact iff_of_false before.takeWhile_ne_nil after.takeWhile_ne_nil

theorem tableName?_eq (text : List Char) :
    tableName? text = ((afterClause? "from" "update" text).map (·.takeWhile isNameChar)).filter
      (fun name => !name.isEmpty) := by
  rw [tableName?]
  cases (afterClause? "from" "update" text).map (·.takeWhile isNameChar) with
  | none => rfl
  | some name => cases name <;> rfl

/-- A run of name characters loses what it would lose without the text behind it. -/
theorem Stripped.takeWhile_isNameChar (word : ∀ c ∈ table, isWordChar c = true)
    (stripped : Stripped table previous text out) :
    Stripped table previous (text.takeWhile isNameChar) (out.takeWhile isNameChar) := by
  induction stripped with
  | nil => exact .nil
  | @keep previous c text out kept tail ih =>
      by_cases name_char : isNameChar c = true
      · rw [takeWhile_cons_nameChar name_char, takeWhile_cons_nameChar name_char]
        refine .keep ?_ ih
        intro qualified
        have whole := qualified.2.append (text.dropWhile isNameChar)
        rw [List.cons_append, List.takeWhile_append_dropWhile] at whole
        exact kept ⟨qualified.1, whole⟩
      · rw [List.takeWhile_cons_of_neg name_char, List.takeWhile_cons_of_neg name_char]
        exact .nil
  | @drop previous text name c rest out bound split spells column tail ih =>
      have name_chars : ∀ d ∈ name, isNameChar d = true := by
        intro d mem
        exact isNameChar_iff.mpr (Or.inl (spells.word word d mem))
      have column_char : isNameChar c = true := isNameChar_iff.mpr (Or.inl column)
      rw [takeWhile_cons_nameChar column_char] at ih
      rw [split, List.takeWhile_append_of_pos name_chars, takeWhile_cons_nameChar (by decide),
        takeWhile_cons_nameChar column_char]
      exact .drop bound rfl spells column ih

/-- What the deletion makes of the name of a clause. -/
structure StrippedName (table name name' : List Char) : Prop where
  stripped : Stripped table none name name'
  lastPart_eq : lastPart name = lastPart name'

/-- A clause that begins with a kept character names what the deletion makes of the name. -/
theorem rel_tableName? (word : ∀ c ∈ table, isWordChar c = true) (nonempty : table ≠ [])
    {c : Char} (is_word : isWordChar c = true) (tail : Stripped table (some c) text out) :
    Option.Rel (StrippedName table) (tableName? (c :: text)) (tableName? (c :: out)) := by
  have clauses := rel_afterClause? keywords_from_update word nonempty is_word tail
  rw [tableName?_eq, tableName?_eq]
  generalize afterClause? "from" "update" (c :: text) = before at clauses ⊢
  generalize afterClause? "from" "update" (c :: out) = after at clauses ⊢
  cases clauses with
  | none => exact .none
  | @some body body' stripped =>
      have empty := stripped.takeWhile_eq_nil_iff word nonempty
      simp only [Option.map_some, Option.filter_some]
      by_cases none_left : body.takeWhile isNameChar = []
      · rw [none_left, empty.mp none_left]
        exact .none
      · have some_left := mt empty.mpr none_left
        rw [if_pos (by simp [none_left]), if_pos (by simp [some_left])]
        exact .some ⟨stripped.takeWhile_isNameChar word, stripped.lastPart_eq word⟩

theorem wordStarts_word {name : List Char} {separator : Char}
    (word : ∀ c ∈ name, isWordChar c = true) (stop : isWordChar separator = false) {letter : Char}
    (is_word : isWordChar letter = true) (text : List Char) :
    wordStarts (some letter) (name ++ separator :: text) = wordStarts (some separator) text := by
  induction name generalizing letter with
  | nil => simp [wordStarts, stop]
  | cons c name ih =>
      rw [List.forall_mem_cons] at word
      simp only [List.cons_append, wordStarts, boundary_some, is_word, Bool.not_true, Bool.and_false,
        Bool.false_eq_true, if_false]
      exact ih word.2 word.1

/-- A search finds no table in a word that is no clause and goes on behind it. -/
theorem findSome?_word {name : List Char} {separator : Char}
    (word : ∀ c ∈ name, isWordChar c = true) (stop : isWordChar separator = false)
    {text : List Char} (missed : tableName? (name ++ separator :: text) = none) :
    (wordStarts previous (name ++ separator :: text)).findSome? tableName? =
      (wordStarts (some separator) text).findSome? tableName? := by
  cases name with
  | nil => simp [wordStarts, stop]
  | cons first name =>
      rw [List.forall_mem_cons] at word
      rw [List.cons_append] at missed ⊢
      simp only [wordStarts]
      rw [wordStarts_word word.2 stop word.1]
      split
      · rw [List.findSome?_cons, missed]
      · rfl

theorem rel_findSome?_cons {α β : Type} {related : α → α → Prop} {find : β → Option α}
    {start start' : β} {starts starts' : List β}
    (here : Option.Rel related (find start) (find start'))
    (behind : Option.Rel related (starts.findSome? find) (starts'.findSome? find)) :
    Option.Rel related ((start :: starts).findSome? find) ((start' :: starts').findSome? find) := by
  rw [List.findSome?_cons, List.findSome?_cons]
  generalize find start = first at here ⊢
  generalize find start' = first' at here ⊢
  cases here with
  | none => exact behind
  | some held => exact .some held

/-- The first clause that names a table is the same one before and after the deletion. -/
theorem Stripped.rel_findTableName (word : ∀ c ∈ table, isWordChar c = true) (nonempty : table ≠ [])
    (stripped : Stripped table previous text out) :
    Option.Rel (StrippedName table) ((wordStarts previous text).findSome? tableName?)
      ((wordStarts previous out).findSome? tableName?) := by
  induction stripped with
  | nil => exact .none
  | @keep previous c text out kept tail ih =>
      simp only [wordStarts]
      split
      · rename_i starts
        rw [Bool.and_eq_true] at starts
        exact rel_findSome?_cons (rel_tableName? word nonempty starts.1 tail) ih
      · exact ih
  | @drop previous text name c rest out bound split spells column tail ih =>
      have after : wordStarts previous out = wordStarts (some '.') out := wordStarts_congr bound out
      have name_word := spells.word word
      have missed : tableName? (name ++ '.' :: c :: rest) = none :=
        tableName?_word_eq_none name_word (by decide) (fun _ => by decide) _
      rw [split, findSome?_word name_word (by decide) missed, after]
      exact ih

theorem Stripped.exists_findTableName? (word : ∀ c ∈ table, isWordChar c = true)
    (nonempty : table ≠ []) (stripped : Stripped table none text out) {name : List Char}
    (found : findTableName? text = some name) :
    ∃ name', findTableName? out = some name' ∧ StrippedName table name name' := by
  have searches : Option.Rel (StrippedName table) (findTableName? text) (findTableName? out) :=
    stripped.rel_findTableName word nonempty
  rw [found] at searches
  generalize findTableName? out = after at searches ⊢
  cases searches with
  | some named => exact ⟨_, rfl, named⟩

end CqlStatements.Qualifier
