import CqlStatements.Proofs.Qualifier.Clauses
import CqlStatements.Proofs.Qualifier.Names
import CqlStatements.Proofs.Qualifier.Deletion

/-!
# What the stripper answers

The scan behind `where` or `set` starts afresh at the body of the clause. Spacing stands in front of the
body, so the word starts that it sees are those of the query. The answer is therefore a matter of
positions of the query: whether a clause names a table, whether a qualified column stands behind the
condition, and which positions lie in qualifiers.
-/
namespace CqlStatements.Qualifier

/-- A qualified column stands behind the first `where` or `set`. -/
def QualifiedInCondition (table query : List Char) : Prop :=
  ∃ j, First (ClauseAt ["where", "set"] query) j ∧ ∃ k, j ≤ k ∧ QualifiedAt table none query k

/-- The result is the query without its qualifiers, or the query where no condition has any. -/
def Rewritten (query result : List Char) : Prop :=
  ∃ name table, First (TableClauseAt query) name ∧ AfterLastDot name table ∧
    (table = [] ∨ ¬QualifiedInCondition table query → result = query) ∧
    (table ≠ [] → QualifiedInCondition table query → result = withoutQualifiers table none query)

theorem qualifiedInCondition_iff {table query : List Char}
    (word : ∀ c ∈ table, isWordChar c = true) (nonempty : table ≠ []) :
    QualifiedInCondition table query ↔
      ∃ i j k, ClauseAt ["where", "set"] query i j ∧ j ≤ k ∧ QualifiedAt table none query k := by
  constructor
  · intro qualified
    obtain ⟨j, ⟨i, clause, -⟩, k, le, at_k⟩ := qualified
    exact ⟨i, j, k, clause, le, at_k⟩
  · intro qualified
    obtain ⟨i, j, k, clause, le, at_k⟩ := qualified
    obtain ⟨j₀, is_first⟩ := First.exists clause
    have begins := at_k.2.beginsWord word nonempty
    exact ⟨j₀, is_first, k,
      le_of_first_clause keywords_where_set is_first clause le at_k.1 begins, at_k⟩

theorem qualified_of_anyQualified {table : List Char} {starts : List (List Char)} {found : Bool}
    (word : ∀ c ∈ table, isWordChar c = true) (answer : anyQualified table starts = .ok found) :
    found = true ↔ ∃ start ∈ starts, Qualified table start := by
  fun_induction anyQualified table starts with
  | case1 =>
      obtain rfl := Except.ok.inj answer
      simp
  | case2 start starts rest matched =>
      obtain rfl := Except.ok.inj answer
      have qualified := (exists_qualifiedColumn_iff word).mp ⟨rest, matched⟩
      exact iff_of_true rfl ⟨start, List.mem_cons_self, qualified⟩
  | case3 start starts missed ih =>
      have not_here := not_qualified_of_mismatch word missed
      rw [ih answer, List.exists_mem_cons_iff, or_iff_right not_here]
  | case4 => simp at answer

theorem exists_qualified_start_iff {table text : List Char} {j : ℕ}
    (word : ∀ c ∈ table, isWordChar c = true) (nonempty : table ≠ [])
    (bound : BoundaryAt none text j) :
    (∃ start ∈ wordStarts none (text.drop j), Qualified table start) ↔
      ∃ k, j ≤ k ∧ QualifiedAt table none text k := by
  rw [exists_start_iff bound]
  constructor
  · intro found
    obtain ⟨k, le, at_k, -, qualified⟩ := found
    exact ⟨k, le, at_k, qualified⟩
  · intro found
    obtain ⟨k, le, at_k, qualified⟩ := found
    exact ⟨k, le, at_k, qualified.beginsWord word nonempty, qualified⟩

theorem qualifiedInClause_ok_iff {table query : List Char} {found : Bool}
    (word : ∀ c ∈ table, isWordChar c = true) (nonempty : table ≠ [])
    (answer : qualifiedInClause table query = .ok found) :
    found = true ↔ QualifiedInCondition table query := by
  unfold qualifiedInClause at answer
  split at answer
  · rename_i missed
    obtain rfl := Except.ok.inj answer
    refine iff_of_false (by decide) ?_
    intro qualified
    obtain ⟨j, first, -⟩ := qualified
    have body := clauseBody?_eq_some_iff.mpr ⟨j, first, rfl⟩
    rw [missed] at body
    simp at body
  · rename_i body some_body
    rw [qualified_of_anyQualified word answer]
    obtain ⟨j, first, rfl⟩ := clauseBody?_eq_some_iff.mp some_body
    obtain ⟨i, clause, -⟩ := id first
    rw [exists_qualified_start_iff word nonempty clause.boundaryAt_body]
    constructor
    · intro found
      exact ⟨j, first, found⟩
    · intro qualified
      obtain ⟨j', ⟨i', clause', -⟩, k, le, at_k⟩ := qualified
      have begins := at_k.2.beginsWord word nonempty
      exact ⟨k, le_of_first_clause keywords_where_set first clause' le at_k.1 begins, at_k⟩

theorem anyQualified_error {table : List Char} {starts : List (List Char)} {e : StripError}
    (word : ∀ c ∈ table, isWordChar c = true) (answer : anyQualified table starts = .error e) :
    e = .insideCharacter ∧ ∃ start ∈ starts, kelvinSign ∈ start := by
  fun_induction anyQualified table starts with
  | case1 => simp at answer
  | case2 => simp at answer
  | case3 start starts missed ih =>
      obtain ⟨same, found⟩ := ih answer
      exact ⟨same, List.exists_mem_cons_of_exists found⟩
  | case4 start starts inside =>
      have kelvin := List.mem_of_mem_take (kelvinSign_mem_of_insideCharacter word inside)
      exact ⟨(Except.error.inj answer).symm, start, List.mem_cons_self, kelvin⟩

theorem stripAll_error {table text : List Char} {previous : Option Char} {e : StripError}
    (word : ∀ c ∈ table, isWordChar c = true)
    (answer : stripAll table previous text = .error e) :
    e = .insideCharacter ∧ kelvinSign ∈ text := by
  fun_induction stripAll table previous text with
  | case1 => simp at answer
  | case2 previous c text bound rest found ih =>
      obtain ⟨same, kelvin⟩ := ih answer
      obtain ⟨name, column, tail, split, -, -, rfl⟩ := (qualifiedColumn_eq_rest_iff word).mp found
      rw [split, List.mem_append, List.mem_cons]
      exact ⟨same, Or.inr (Or.inr kelvin)⟩
  | case3 previous c text bound missed ih =>
      obtain ⟨same, kelvin⟩ := ih (Fallible.map_eq_error_iff.mp answer)
      exact ⟨same, List.mem_cons_of_mem c kelvin⟩
  | case4 previous c text bound inside =>
      have kelvin := List.mem_of_mem_take (kelvinSign_mem_of_insideCharacter word inside)
      exact ⟨(Except.error.inj answer).symm, kelvin⟩
  | case5 previous c text bound ih =>
      obtain ⟨same, kelvin⟩ := ih (Fallible.map_eq_error_iff.mp answer)
      exact ⟨same, List.mem_cons_of_mem c kelvin⟩

theorem qualifiedInClause_error {table query : List Char} {e : StripError}
    (word : ∀ c ∈ table, isWordChar c = true)
    (answer : qualifiedInClause table query = .error e) :
    e = .insideCharacter ∧ kelvinSign ∈ query := by
  unfold qualifiedInClause at answer
  split at answer
  · simp at answer
  · rename_i body some_body
    obtain ⟨same, start, start_mem, kelvin⟩ := anyQualified_error word answer
    obtain ⟨j, -, rfl⟩ := clauseBody?_eq_some_iff.mp some_body
    obtain ⟨i, -, -, rfl⟩ := mem_wordStarts.mp start_mem
    exact ⟨same, List.mem_of_mem_drop (List.mem_of_mem_drop kelvin)⟩

theorem isWordChar_of_findTableName? {query name : List Char}
    (found : findTableName? query = some name) : ∀ c ∈ lastPart name, isWordChar c = true := by
  obtain ⟨i, ⟨j, -, run, -⟩, -⟩ := findTableName?_eq_some_iff.mp found
  rw [run]
  exact isWordChar_of_mem_lastPart

/-- A query fails for want of a table name or over a Kelvin sign. -/
theorem stripChars_error {query : List Char} {e : StripError}
    (answer : stripChars query = .error e) :
    (findTableName? query = none ∧ e = .tableNotFound (String.ofList query)) ∨
      (e = .insideCharacter ∧ kelvinSign ∈ query) := by
  unfold stripChars at answer
  split at answer
  · rename_i missed
    exact Or.inl ⟨missed, (Except.error.inj answer).symm⟩
  · rename_i name found
    have word := isWordChar_of_findTableName? found
    right
    split at answer
    · simp at answer
    · rcases Fallible.bind_eq_error_iff.mp answer with in_clause | ⟨qualified, -, in_query⟩
      · exact qualifiedInClause_error word in_clause
      · split at in_query
        · exact stripAll_error word in_query
        · simp at in_query

/-- An answer is the query itself or what one pass over it leaves. -/
theorem stripChars_ok {query result : List Char} (answer : stripChars query = .ok result) :
    ∃ name, findTableName? query = some name ∧
      (((lastPart name = [] ∨ ¬QualifiedInCondition (lastPart name) query) ∧ result = query) ∨
        (lastPart name ≠ [] ∧ QualifiedInCondition (lastPart name) query ∧
          Stripped (lastPart name) none query result)) := by
  unfold stripChars at answer
  split at answer
  · simp at answer
  · rename_i name found
    have word := isWordChar_of_findTableName? found
    refine ⟨name, found, ?_⟩
    split at answer
    · rename_i empty
      obtain rfl := Except.ok.inj answer
      exact Or.inl ⟨Or.inl (List.isEmpty_iff.mp empty), rfl⟩
    · rename_i not_empty
      have nonempty : lastPart name ≠ [] := mt List.isEmpty_iff.mpr not_empty
      obtain ⟨qualified, in_clause, answer⟩ := Fallible.bind_eq_ok_iff.mp answer
      have condition := qualifiedInClause_ok_iff word nonempty in_clause
      split at answer
      · rename_i is_qualified
        exact Or.inr ⟨nonempty, condition.mp is_qualified, stripped_of_stripAll word answer⟩
      · rename_i not_qualified
        obtain rfl := Except.ok.inj answer
        exact Or.inl ⟨Or.inr (mt condition.mpr not_qualified), rfl⟩

theorem rewritten_of_stripChars {query result : List Char} (answer : stripChars query = .ok result) :
    Rewritten query result := by
  obtain ⟨name, found, cases⟩ := stripChars_ok answer
  have first := findTableName?_eq_some_iff.mp found
  have word := isWordChar_of_findTableName? found
  refine ⟨name, lastPart name, first, afterLastDot_iff.mpr rfl, ?_⟩
  rcases cases with ⟨unqualified, same⟩ | ⟨nonempty, qualified, stripped⟩
  · refine ⟨fun _ => same, ?_⟩
    intro nonempty qualified
    exact absurd unqualified (not_or.mpr ⟨nonempty, not_not_intro qualified⟩)
  · refine ⟨?_, fun _ _ => stripped.eq_withoutQualifiers word⟩
    intro unqualified
    exact absurd unqualified (not_or.mpr ⟨nonempty, not_not_intro qualified⟩)

theorem Rewritten.unique {query result result' : List Char} (rewritten : Rewritten query result)
    (rewritten' : Rewritten query result') : result = result' := by
  obtain ⟨name, table, first, after, unchanged, stripped⟩ := rewritten
  obtain ⟨name', table', first', after', unchanged', stripped'⟩ := rewritten'
  have found := findTableName?_eq_some_iff.mpr first
  rw [← findTableName?_eq_some_iff, found] at first'
  obtain rfl := Option.some.inj first'
  rw [afterLastDot_iff] at after after'
  obtain rfl := after.trans after'.symm
  by_cases none_qualified : table = [] ∨ ¬QualifiedInCondition table query
  · rw [unchanged none_qualified, unchanged' none_qualified]
  · rw [not_or, not_not] at none_qualified
    rw [stripped none_qualified.1 none_qualified.2, stripped' none_qualified.1 none_qualified.2]

theorem strip_eq_ok_iff {query result : String} :
    strip query = .ok result ↔ stripChars query.toList = .ok result.toList := by
  rw [strip, Fallible.map_eq_ok_iff]
  constructor
  · intro answer
    obtain ⟨text, answer, rfl⟩ := answer
    rw [String.toList_ofList]
    exact answer
  · intro answer
    exact ⟨result.toList, answer, String.ofList_toList⟩

theorem strip_eq_error_iff {query : String} {e : StripError} :
    strip query = .error e ↔ stripChars query.toList = .error e := by
  rw [strip, Fallible.map_eq_error_iff]

theorem strip_eq_tableNotFound_iff {query text : String} :
    strip query = .error (.tableNotFound text) ↔
      findTableName? query.toList = none ∧ text = query := by
  rw [strip_eq_error_iff]
  constructor
  · intro answer
    rcases stripChars_error answer with ⟨missed, same⟩ | ⟨same, -⟩
    · rw [String.ofList_toList] at same
      exact ⟨missed, StripError.tableNotFound.inj same⟩
    · exact StripError.noConfusion same
  · intro found
    obtain ⟨missed, rfl⟩ := found
    simp only [stripChars, missed, String.ofList_toList]

/-- Where the stripper answers, it does the declarative rewrite and fails only without a table name. -/
theorem strip_exact (query : String) (answered : strip query ≠ .error .insideCharacter) :
    (strip query = .error (.tableNotFound query) ↔
        ∀ i name, ¬TableClauseAt query.toList i name) ∧
      (∀ result, strip query = .ok result ↔ Rewritten query.toList result.toList) ∧
      ∀ name table, First (TableClauseAt query.toList) name → AfterLastDot name table →
        table ≠ [] →
        (QualifiedInCondition table query.toList ↔
          ∃ i j k, ClauseAt ["where", "set"] query.toList i j ∧ j ≤ k ∧
            QualifiedAt table none query.toList k) := by
  refine ⟨?_, ?_, ?_⟩
  · rw [strip_eq_tableNotFound_iff, ← findTableName?_eq_none_iff]
    exact and_iff_left rfl
  · intro result
    rw [strip_eq_ok_iff]
    constructor
    · exact rewritten_of_stripChars
    · intro rewritten
      cases answer : stripChars query.toList with
      | ok other =>
          rw [rewritten.unique (rewritten_of_stripChars answer)]
      | error e =>
          exfalso
          rcases stripChars_error answer with ⟨missed, -⟩ | ⟨rfl, -⟩
          · obtain ⟨name, -, first, -⟩ := rewritten
            rw [← findTableName?_eq_some_iff, missed] at first
            simp at first
          · exact answered (strip_eq_error_iff.mpr answer)
  · intro name table first after nonempty
    have found := findTableName?_eq_some_iff.mpr first
    rw [afterLastDot_iff] at after
    rw [after] at nonempty ⊢
    exact qualifiedInCondition_iff (isWordChar_of_findTableName? found) nonempty

/-- Rows of qualifiers, one in another case, in front of the clause, in its name and behind it. -/
def chained : String := "select t.a from s.t.t where T.t.id = 1"

theorem strip_chained : strip chained = .ok "select a from s.t where id = 1" :=
  Fallible.toOption_eq_some_iff.mp (by decide +kernel)

theorem strip_exact_chained :
    strip chained ≠ .error .insideCharacter ∧
      Rewritten chained.toList "select a from s.t where id = 1".toList := by
  have answered : strip chained ≠ .error .insideCharacter := by
    rw [strip_chained]
    simp
  exact ⟨answered, ((strip_exact chained answered).2.1 _).mp strip_chained⟩

end CqlStatements.Qualifier
