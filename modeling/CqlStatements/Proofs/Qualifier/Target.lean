import CqlStatements.Proofs.Qualifier.Searches
import CqlStatements.Proofs.Qualifier.Stripping

/-!
# The target of a statement

The name behind `from` or `update` is a part of the query like any other. A part of the name is a qualifier
if it is spelled like the last part and a word stands behind its dot, and then it goes with the qualifiers
of the columns. All other parts stay, and the last one always does. So the name is untouched unless one of
its earlier parts, such as the keyspace, is called like the table.
-/
namespace CqlStatements.Qualifier

/-- The parts of a name that stay: those that are spelled like the table go, but not in front of an empty
part, and not from the end. -/
def keptParts (table : List Char) : List (List Char) → List (List Char)
  | part :: next :: parts =>
      if Spells table part ∧ next ≠ [] then keptParts table (next :: parts)
      else part :: keptParts table (next :: parts)
  | parts => parts

theorem keptParts_eq_self {table : List Char} {parts : List (List Char)}
    (differ : ∀ part ∈ parts.dropLast, ¬Spells table part) : keptParts table parts = parts := by
  fun_induction keptParts table parts with
  | case1 part next parts gone ih =>
      exact absurd gone.1 (differ part (by simp))
  | case2 part next parts stays ih =>
      rw [List.dropLast_cons_cons, List.forall_mem_cons] at differ
      rw [ih differ.2]
  | case3 => rfl

variable {table text out : List Char} {previous : Option Char}

/-- The first part of a run of name characters is empty unless the run begins with a word. -/
theorem exists_splitOn_eq_cons (name_chars : ∀ c ∈ text, isNameChar c = true) :
    ∃ part parts, text.splitOn '.' = part :: parts ∧ (part ≠ [] ↔ BeginsWord text) := by
  cases text with
  | nil => exact ⟨[], [], rfl, by simp [BeginsWord]⟩
  | cons c text =>
      rw [List.forall_mem_cons] at name_chars
      rw [List.splitOn_cons_eq_if_modifyHead, beginsWord_cons]
      by_cases dot : c = '.'
      · rw [if_pos (beq_iff_eq.mpr dot), dot]
        exact ⟨[], _, rfl, by decide⟩
      · obtain ⟨part, parts, split⟩ := List.exists_cons_of_ne_nil (List.splitOn_ne_nil '.' text)
        have is_word := (isNameChar_iff.mp name_chars.1).resolve_right dot
        rw [if_neg (by simpa using dot), split]
        exact ⟨c :: part, parts, rfl, by simp [is_word]⟩

/-- The rest of a word is kept. -/
theorem StrippedInWord.of_append {name rest : List Char} (word : ∀ c ∈ name, isWordChar c = true)
    (stripped : StrippedInWord table (name ++ rest) out) :
    ∃ out', out = name ++ out' ∧ StrippedInWord table rest out' := by
  induction name generalizing out with
  | nil => exact ⟨out, rfl, stripped⟩
  | cons c name ih =>
      rw [List.forall_mem_cons] at word
      rcases stripped.cases with ⟨same, -⟩ | ⟨first, rest', out', same, rfl, tail⟩
      · simp at same
      · obtain ⟨rfl, rfl⟩ := List.cons.inj same
        obtain ⟨behind, rfl, in_rest⟩ := ih word.2 ⟨c, word.1, tail⟩
        exact ⟨behind, rfl, in_rest⟩

theorem not_dot_mem_of_word {name : List Char} (word : ∀ c ∈ name, isWordChar c = true) :
    '.' ∉ name :=
  fun mem => absurd (word '.' mem) (by decide)

/-- A word without a dot behind it is kept. -/
theorem Stripped.eq_of_word (word : ∀ c ∈ text, isWordChar c = true)
    (stripped : Stripped table previous text out) : out = text := by
  induction stripped with
  | nil => rfl
  | keep kept tail ih =>
      rw [List.forall_mem_cons] at word
      rw [ih word.2]
  | drop bound split spells column tail ih =>
      have no_dot := not_dot_mem_of_word word
      rw [split, List.mem_append, List.mem_cons] at no_dot
      exact absurd (Or.inr (Or.inl rfl)) no_dot

/-- A word in front of a dot goes as a whole, with its dot, or stays as a whole. -/
theorem Stripped.cases_of_word_dot (word : ∀ c ∈ table, isWordChar c = true) {part rest : List Char}
    (part_word : ∀ c ∈ part, isWordChar c = true) (bound : boundary previous = true)
    (stripped : Stripped table previous (part ++ '.' :: rest) out) :
    (Spells table part ∧ BeginsWord rest ∧ Stripped table (some '.') rest out) ∨
      (¬(Spells table part ∧ BeginsWord rest) ∧
        ∃ out', out = part ++ '.' :: out' ∧ Stripped table (some '.') rest out') := by
  generalize whole : part ++ '.' :: rest = text at stripped
  cases stripped with
  | nil => simp at whole
  | @keep previous c text out kept tail =>
      right
      constructor
      · rintro ⟨spells, column, behind, rfl, column_word⟩
        exact kept ⟨bound, part, column, behind, whole.symm, spells, column_word⟩
      · cases part with
        | nil =>
            obtain ⟨rfl, rfl⟩ := List.cons.inj whole
            exact ⟨out, rfl, tail⟩
        | cons first part =>
            obtain ⟨rfl, rfl⟩ := List.cons.inj whole
            rw [List.forall_mem_cons] at part_word
            obtain ⟨behind, rfl, in_rest⟩ :=
              StrippedInWord.of_append part_word.2 ⟨first, part_word.1, tail⟩
            rcases in_rest.cases with ⟨same, -⟩ | ⟨dot, rest', out', same, rfl, tail⟩
            · simp at same
            · obtain ⟨rfl, rfl⟩ := List.cons.inj same
              exact ⟨out', rfl, tail⟩
  | @drop previous text name c behind out bound split spells column tail =>
      left
      have same_parts := congrArg (List.splitOn '.') (whole.trans split)
      rw [List.splitOn_append_cons_self_of_not_mem (not_dot_mem_of_word part_word),
        List.splitOn_append_cons_self_of_not_mem (not_dot_mem_of_word (spells.word word))] at same_parts
      obtain ⟨rfl, -⟩ := List.cons.inj same_parts
      obtain ⟨-, rfl⟩ := List.cons.inj (List.append_cancel_left (whole.trans split))
      exact ⟨spells, beginsWord_cons.mpr column, tail⟩

/-- The deletion goes over a name part by part. -/
theorem Stripped.splitOn_dot (word : ∀ c ∈ table, isWordChar c = true)
    (name_chars : ∀ c ∈ text, isNameChar c = true) (bound : boundary previous = true)
    (stripped : Stripped table previous text out) :
    out.splitOn '.' = keptParts table (text.splitOn '.') := by
  -- the induction is on the length, since the first part is taken off as a whole
  induction length : text.length using Nat.strongRecOn generalizing text out previous with
  | _ n ih =>
      by_cases dot : '.' ∈ text
      · obtain ⟨part, rest, rfl, no_dot⟩ := List.eq_append_cons_of_mem dot
        rw [List.forall_mem_append, List.forall_mem_cons] at name_chars
        obtain ⟨part_chars, -, rest_chars⟩ := name_chars
        have part_word := isWordChar_of_no_dot part_chars no_dot
        have shorter : rest.length < n := by
          rw [← length, List.length_append, List.length_cons]
          omega
        obtain ⟨next, parts, split, begins⟩ := exists_splitOn_eq_cons rest_chars
        rw [List.splitOn_append_cons_self_of_not_mem no_dot]
        rcases stripped.cases_of_word_dot word part_word bound with
          ⟨spells, begins_word, tail⟩ | ⟨stays, out', rfl, tail⟩
        · rw [ih _ shorter rest_chars rfl tail rfl, split, keptParts,
            if_pos ⟨spells, begins.mpr begins_word⟩]
        · rw [List.splitOn_append_cons_self_of_not_mem no_dot, ih _ shorter rest_chars rfl tail rfl,
            split, keptParts, if_neg (by rwa [begins])]
      · have text_word := isWordChar_of_no_dot name_chars dot
        rw [stripped.eq_of_word text_word, List.splitOn_eq_singleton dot]
        rfl

/-- What stands where a query that is answered names its table: the name without some of the parts in
front of the last one that are spelled like it. -/
theorem strip_target {query result : String} (answer : strip query = .ok result) :
    ∃ name table name', First (TableClauseAt query.toList) name ∧ AfterLastDot name table ∧
      First (TableClauseAt result.toList) name' ∧ AfterLastDot name' table ∧
      (table = [] ∨ ¬QualifiedInCondition table query.toList → name' = name) ∧
      (table ≠ [] → QualifiedInCondition table query.toList →
        name'.splitOn '.' = keptParts table (name.splitOn '.')) ∧
      ((∀ part ∈ (name.splitOn '.').dropLast, ¬Spells table part) → name' = name) := by
  obtain ⟨name, found, cases⟩ := stripChars_ok (strip_eq_ok_iff.mp answer)
  have first := findTableName?_eq_some_iff.mp found
  have after := afterLastDot_iff.mpr (rfl : lastPart name = lastPart name)
  rcases cases with ⟨unqualified, same⟩ | ⟨nonempty, qualified, stripped⟩
  · refine ⟨name, lastPart name, name, first, after, ?_, after, fun _ => rfl, ?_, fun _ => rfl⟩
    · rwa [same]
    · intro nonempty qualified
      exact absurd unqualified (not_or.mpr ⟨nonempty, not_not_intro qualified⟩)
  · have word := isWordChar_of_findTableName? found
    obtain ⟨name', found', named⟩ := stripped.exists_findTableName? word nonempty found
    have name_chars : ∀ c ∈ name, isNameChar c = true := by
      obtain ⟨i, ⟨j, -, rfl, -⟩, -⟩ := first
      exact fun c mem => List.mem_takeWhile_imp mem
    have parts := named.stripped.splitOn_dot word name_chars rfl
    refine ⟨name, lastPart name, name', first, after, findTableName?_eq_some_iff.mp found', ?_, ?_,
      fun _ _ => parts, ?_⟩
    · rw [named.lastPart_eq]
      exact afterLastDot_iff.mpr rfl
    · intro unqualified
      exact absurd unqualified (not_or.mpr ⟨nonempty, not_not_intro qualified⟩)
    · intro differ
      rw [keptParts_eq_self differ] at parts
      have joined := congrArg ['.'].intercalate parts
      rwa [List.intercalate_splitOn, List.intercalate_splitOn] at joined

/-- One part of the name in `chained` goes, the keyspace and the table stay. -/
theorem strip_target_chained :
    strip chained = .ok "select a from s.t where id = 1" ∧
      First (TableClauseAt chained.toList) "s.t.t".toList ∧
      First (TableClauseAt "select a from s.t where id = 1".toList) "s.t".toList ∧
      "s.t".toList.splitOn '.' = keptParts "t".toList ("s.t.t".toList.splitOn '.') := by
  have found : findTableName? chained.toList = some "s.t.t".toList := by decide +kernel
  have found' : findTableName? "select a from s.t where id = 1".toList = some "s.t".toList := by
    decide +kernel
  obtain ⟨name, table, name', first, after, first', -, unchanged, parts, -⟩ :=
    strip_target strip_chained
  obtain rfl := Option.some.inj (found.symm.trans (findTableName?_eq_some_iff.mpr first))
  obtain rfl := Option.some.inj (found'.symm.trans (findTableName?_eq_some_iff.mpr first'))
  have shorter : ¬(table = [] ∨ ¬QualifiedInCondition table chained.toList) :=
    fun unqualified => absurd (unchanged unqualified) (by decide +kernel)
  rw [not_or, not_not] at shorter
  have table_eq : table = "t".toList := (afterLastDot_iff.mp after).trans (by decide +kernel)
  rw [table_eq] at parts shorter
  exact ⟨strip_chained, first, first', parts shorter.1 shorter.2⟩

/-- A statement about a table that is called like its keyspace loses the keyspace. -/
theorem strip_sameKeyspace :
    ¬∀ query result name name', strip query = .ok result → First (TableClauseAt query.toList) name →
      First (TableClauseAt result.toList) name' → name' = name := by
  intro untouched
  have answer : strip "select * from users.users where users.id = 1" =
      .ok "select * from users where id = 1" :=
    Fallible.toOption_eq_some_iff.mp (by decide +kernel)
  have found : findTableName? "select * from users.users where users.id = 1".toList =
      some "users.users".toList := by decide +kernel
  have found' : findTableName? "select * from users where id = 1".toList = some "users".toList := by
    decide +kernel
  have same := untouched _ _ _ _ answer (findTableName?_eq_some_iff.mp found)
    (findTableName?_eq_some_iff.mp found')
  exact absurd same (by decide +kernel)

end CqlStatements.Qualifier
