import CqlStatements.Proofs.Qualifier.Searches
import CqlStatements.Proofs.Qualifier.Stripping

/-!
# Stripping twice

What one pass leaves has no qualified column any more: a word that is kept and stands in front of a dot
and a word stood there in the query, and would have been deleted. The second pass finds the same table
by the same last part, finds nothing to delete, and answers with its own input.
-/
namespace CqlStatements.Qualifier

variable {table text out : List Char} {previous : Option Char}

/-- The rest of a word is kept. -/
theorem StrippedInWord.append {name rest : List Char} (word : ∀ c ∈ name, isWordChar c = true)
    (stripped : StrippedInWord table text (name ++ rest)) :
    ∃ before, text = name ++ before ∧ StrippedInWord table before rest := by
  induction name generalizing text with
  | nil => exact ⟨text, rfl, stripped⟩
  | cons c name ih =>
      rw [List.forall_mem_cons] at word
      rcases stripped.cases with ⟨-, same⟩ | ⟨first, before, out', rfl, same, tail⟩
      · simp at same
      · obtain ⟨rfl, rfl⟩ := List.cons.inj same
        obtain ⟨before, rfl, behind⟩ := ih word.2 ⟨c, word.1, tail⟩
        exact ⟨before, rfl, behind⟩

/-- A column that is qualified after the deletion was qualified before. -/
theorem Stripped.qualified (word : ∀ c ∈ table, isWordChar c = true) (nonempty : table ≠ [])
    {c : Char} (is_word : isWordChar c = true) (tail : Stripped table (some c) text out)
    (qualified : Qualified table (c :: out)) : Qualified table (c :: text) := by
  obtain ⟨name, column, rest, split, spells, column_word⟩ := qualified
  cases name with
  | nil =>
      obtain ⟨rfl, -⟩ := List.cons.inj split
      exact absurd is_word (by decide)
  | cons first name =>
      obtain ⟨rfl, rfl⟩ := List.cons.inj split
      have word_name := spells.word word
      rw [List.forall_mem_cons] at word_name
      obtain ⟨before, rfl, stripped⟩ := StrippedInWord.append word_name.2 ⟨c, is_word, tail⟩
      rcases stripped.cases with ⟨-, same⟩ | ⟨dot, behind, out', rfl, same, tail⟩
      · simp at same
      · obtain ⟨rfl, rfl⟩ := List.cons.inj same
        have begins := (tail.beginsWord_iff word nonempty).mpr (beginsWord_cons.mpr column_word)
        obtain ⟨column', rest', rfl, column_word'⟩ := begins
        exact ⟨c :: name, column', rest', rfl, spells, column_word'⟩

/-- One pass leaves no qualified column. -/
theorem Stripped.clean (word : ∀ c ∈ table, isWordChar c = true) (nonempty : table ≠ [])
    (stripped : Stripped table previous text out) :
    ∀ start ∈ wordStarts previous out, ¬Qualified table start := by
  induction stripped with
  | nil => simp [wordStarts]
  | @keep previous c text out kept tail ih =>
      intro start mem
      simp only [wordStarts] at mem
      split at mem
      · rename_i starts
        rw [Bool.and_eq_true] at starts
        rcases List.mem_cons.mp mem with rfl | mem
        · intro qualified
          exact kept ⟨starts.2, tail.qualified word nonempty starts.1 qualified⟩
        · exact ih start mem
      · exact ih start mem
  | @drop previous text name c rest out bound split spells column tail ih =>
      intro start mem
      have same : wordStarts previous out = wordStarts (some '.') out := wordStarts_congr bound out
      rw [same] at mem
      exact ih start mem

theorem Stripped.not_qualifiedInCondition (word : ∀ c ∈ table, isWordChar c = true)
    (nonempty : table ≠ []) (stripped : Stripped table none text out) :
    ¬QualifiedInCondition table out := by
  intro qualified
  obtain ⟨j, -, k, -, bound, qualified⟩ := qualified
  have start := mem_wordStarts.mpr ⟨k, bound, qualified.beginsWord word nonempty, rfl⟩
  exact stripped.clean word nonempty _ start qualified

/-- An answer is found to be in the same table. -/
theorem findTableName?_of_stripChars {query result name : List Char}
    (answer : stripChars query = .ok result) (found : findTableName? query = some name) :
    ∃ name', findTableName? result = some name' ∧ lastPart name' = lastPart name := by
  obtain ⟨other, found', cases⟩ := stripChars_ok answer
  rw [found] at found'
  obtain rfl := Option.some.inj found'
  rcases cases with ⟨-, rfl⟩ | ⟨nonempty, -, stripped⟩
  · exact ⟨name, found, rfl⟩
  · have word := isWordChar_of_findTableName? found
    obtain ⟨name', found', named⟩ := stripped.exists_findTableName? word nonempty found
    exact ⟨name', found', named.lastPart_eq.symm⟩

/-- An answer is its own answer, unless the second pass gives none. -/
theorem stripChars_of_stripChars {query result : List Char} (answer : stripChars query = .ok result)
    (answered : stripChars result ≠ .error .insideCharacter) : stripChars result = .ok result := by
  obtain ⟨name, found, cases⟩ := stripChars_ok answer
  obtain ⟨name', found', same_part⟩ := findTableName?_of_stripChars answer found
  rcases cases with ⟨-, rfl⟩ | ⟨nonempty, -, stripped⟩
  · exact answer
  · have word := isWordChar_of_findTableName? found
    cases again : stripChars result with
    | ok twice =>
        obtain ⟨other, found'', cases⟩ := stripChars_ok again
        rw [found'] at found''
        obtain rfl := Option.some.inj found''
        rcases cases with ⟨-, rfl⟩ | ⟨-, qualified, -⟩
        · rfl
        · rw [same_part] at qualified
          exact absurd qualified (stripped.not_qualifiedInCondition word nonempty)
    | error e =>
        rcases stripChars_error again with ⟨missed, -⟩ | ⟨rfl, -⟩
        · rw [found'] at missed
          simp at missed
        · exact absurd again answered

theorem kelvinSign_not_mem_of_stripChars {query result : List Char}
    (answer : stripChars query = .ok result) (no_kelvin : kelvinSign ∉ query) :
    kelvinSign ∉ result := by
  obtain ⟨name, -, ⟨-, rfl⟩ | ⟨-, -, stripped⟩⟩ := stripChars_ok answer
  · exact no_kelvin
  · exact mt stripped.mem no_kelvin

theorem strip_ne_insideCharacter {query : String} (no_kelvin : kelvinSign ∉ query.toList) :
    strip query ≠ .error .insideCharacter := by
  intro answer
  rcases stripChars_error (strip_eq_error_iff.mp answer) with ⟨-, same⟩ | ⟨-, kelvin⟩
  · exact StripError.noConfusion same
  · exact no_kelvin kelvin

/-- Stripping an answer gives the answer again, in the same table, or nothing over a Kelvin sign. -/
theorem strip_idempotent (query : String) :
    (∀ result, strip query = .ok result →
        (∀ text, strip result ≠ .error (.tableNotFound text)) ∧
        (strip result ≠ .error .insideCharacter → strip result = .ok result) ∧
        ∃ name name' table, First (TableClauseAt query.toList) name ∧ AfterLastDot name table ∧
          First (TableClauseAt result.toList) name' ∧ AfterLastDot name' table) ∧
      (kelvinSign ∉ query.toList →
        strip query ≠ .error .insideCharacter ∧
        (∀ result, strip query = .ok result → strip result ≠ .error .insideCharacter) ∧
        strip query >>= strip = strip query) := by
  have again : ∀ result, strip query = .ok result → strip result ≠ .error .insideCharacter →
      strip result = .ok result := by
    intro result answer answered
    rw [strip_eq_ok_iff] at answer ⊢
    exact stripChars_of_stripChars answer (mt strip_eq_error_iff.mpr answered)
  have no_panic : kelvinSign ∉ query.toList → ∀ result, strip query = .ok result →
      strip result ≠ .error .insideCharacter := by
    intro no_kelvin result answer
    rw [strip_eq_ok_iff] at answer
    exact strip_ne_insideCharacter (kelvinSign_not_mem_of_stripChars answer no_kelvin)
  constructor
  · intro result answer
    have chars := strip_eq_ok_iff.mp answer
    obtain ⟨name, found, -⟩ := stripChars_ok chars
    obtain ⟨name', found', same⟩ := findTableName?_of_stripChars chars found
    refine ⟨?_, again result answer, name, name', lastPart name, ?_⟩
    · intro text missed
      obtain ⟨missed, -⟩ := strip_eq_tableNotFound_iff.mp missed
      rw [found'] at missed
      simp at missed
    · refine ⟨findTableName?_eq_some_iff.mp found, afterLastDot_iff.mpr rfl,
        findTableName?_eq_some_iff.mp found', ?_⟩
      rw [afterLastDot_iff, same]
  · intro no_kelvin
    refine ⟨strip_ne_insideCharacter no_kelvin, no_panic no_kelvin, ?_⟩
    cases answer : strip query with
    | ok result => exact again result answer (no_panic no_kelvin result answer)
    | error e => rfl

theorem strip_idempotent_chained :
    strip chained = .ok "select a from s.t where id = 1" ∧
      strip "select a from s.t where id = 1" = .ok "select a from s.t where id = 1" := by
  have no_kelvin : kelvinSign ∉ chained.toList := by decide +kernel
  obtain ⟨one_pass, two_passes⟩ := strip_idempotent chained
  have answered := (two_passes no_kelvin).2.1 _ strip_chained
  exact ⟨strip_chained, (one_pass _ strip_chained).2.1 answered⟩

end CqlStatements.Qualifier
