import CqlStatements.Proofs.Qualifier.Stripping

/-!
# Where the stripper has no answer

A qualifier is looked for at every place where a word can start, in the condition first and then in the
whole query. Where its letters agree with the text and its bytes end inside a character, the search ends
without an answer. Which places are looked at is again a matter of positions of the query, so the queries
without an answer can be told exactly. All others are answered, or name no table.
-/
namespace CqlStatements.Qualifier

/-- The letters of a name agree with a text as far as the shorter of them goes, and the bytes of the name
end inside a character of the text. -/
def Severed (name text : List Char) : Prop :=
  (∀ pair ∈ name.zip text, sameLetter pair.1 pair.2 = true) ∧
    ∃ front c rest, text = front ++ c :: rest ∧ byteLength front < byteLength name ∧
      byteLength name < byteLength front + c.utf8Size

variable {table text query : List Char} {previous : Option Char}

section Cuts

theorem agree_iff {name text : List Char} :
    agree name text = true ↔ ∀ pair ∈ name.zip text, sameLetter pair.1 pair.2 = true := by
  fun_induction agree name text with
  | case1 letter name c text ih =>
      rw [Bool.and_eq_true, ih, List.zip_cons_cons, List.forall_mem_cons]
  | case2 name text ended =>
      cases name with
      | nil => simp
      | cons letter name =>
          cases text with
          | nil => simp
          | cons c text => exact absurd rfl (ended letter name c text rfl)

theorem dropBytes_eq_insideCharacter_iff {text : List Char} {n : ℕ} :
    dropBytes text n = .insideCharacter ↔
      ∃ front c rest, text = front ++ c :: rest ∧ byteLength front < n ∧
        n < byteLength front + c.utf8Size := by
  fun_induction dropBytes text n with
  | case1 => simp
  | case2 => simp
  | case3 c text n short =>
      refine iff_of_true rfl ⟨[], c, text, rfl, Nat.succ_pos n, ?_⟩
      simpa only [byteLength, Nat.zero_add] using short
  | case4 c text n fits ih =>
      rw [ih]
      constructor
      · intro cut
        obtain ⟨front, d, rest, rfl, low, high⟩ := cut
        refine ⟨c :: front, d, rest, rfl, ?_, ?_⟩
        · simp only [byteLength]
          omega
        · simp only [byteLength]
          omega
      · intro cut
        obtain ⟨front, d, rest, split, low, high⟩ := cut
        cases front with
        | nil =>
            obtain ⟨rfl, rfl⟩ := List.cons.inj split
            simp only [byteLength, Nat.zero_add] at high
            exact absurd high fits
        | cons first front =>
            obtain ⟨rfl, rfl⟩ := List.cons.inj split
            simp only [byteLength] at low high
            exact ⟨front, d, rest, rfl, by omega, by omega⟩

theorem matchName_eq_insideCharacter_iff {name text : List Char} :
    matchName name text = .insideCharacter ↔ Severed name text := by
  unfold matchName
  split
  · rename_i same
    rw [dropBytes_eq_insideCharacter_iff]
    exact (and_iff_right (agree_iff.mp same)).symm
  · rename_i other
    refine iff_of_false (by simp) ?_
    intro severed
    exact other (agree_iff.mpr severed.1)

theorem qualifiedColumn_eq_insideCharacter_iff :
    qualifiedColumn table text = .insideCharacter ↔ Severed table text := by
  rw [← matchName_eq_insideCharacter_iff]
  unfold qualifiedColumn
  split
  · rename_i c rest matched
    rw [matched]
    split <;> simp
  all_goals simp_all

theorem not_severed_nil : ¬Severed table [] := by
  intro severed
  obtain ⟨front, c, rest, split, -⟩ := severed.2
  simp at split

end Cuts

section Scans

/-- A scan of texts one by one ends inside a character at one of them, or stops before all of them have
been looked at. -/
theorem severed_of_anyQualified {starts : List (List Char)} {e : StripError}
    (answer : anyQualified table starts = .error e) : ∃ start ∈ starts, Severed table start := by
  fun_induction anyQualified table starts with
  | case1 => simp at answer
  | case2 => simp at answer
  | case3 start starts missed ih => exact List.exists_mem_cons_of_exists (ih answer)
  | case4 start starts inside =>
      exact ⟨start, List.mem_cons_self, qualifiedColumn_eq_insideCharacter_iff.mp inside⟩

theorem not_severed_of_anyQualified {starts : List (List Char)}
    (answer : anyQualified table starts = .ok false) : ∀ start ∈ starts, ¬Severed table start := by
  fun_induction anyQualified table starts with
  | case1 => simp
  | case2 => simp at answer
  | case3 start starts missed ih =>
      refine List.forall_mem_cons.mpr ⟨?_, ih answer⟩
      rw [← qualifiedColumn_eq_insideCharacter_iff, missed]
      simp
  | case4 => simp at answer

/-- A name is severed at a place of the text where a word can start. -/
def SeveredSomewhere (table : List Char) (previous : Option Char) (text : List Char) : Prop :=
  ∃ k, BoundaryAt previous text k ∧ Severed table (text.drop k)

theorem severedSomewhere_nil : ¬SeveredSomewhere table previous [] := by
  intro severed
  obtain ⟨k, -, severed⟩ := severed
  rw [List.drop_nil] at severed
  exact not_severed_nil severed

theorem severedSomewhere_cons {c : Char} :
    SeveredSomewhere table previous (c :: text) ↔
      (boundary previous = true ∧ Severed table (c :: text)) ∨
        SeveredSomewhere table (some c) text := by
  constructor
  · intro severed
    obtain ⟨k, bound, severed⟩ := severed
    cases k with
    | zero => exact Or.inl ⟨bound, severed⟩
    | succ k => exact Or.inr ⟨k, (boundaryAt_succ ..).mp bound, severed⟩
  · intro severed
    rcases severed with ⟨bound, severed⟩ | ⟨k, bound, severed⟩
    · exact ⟨0, bound, severed⟩
    · exact ⟨k + 1, (boundaryAt_succ ..).mpr bound, severed⟩

theorem severedSomewhere_congr {previous' : Option Char}
    (same : boundary previous = boundary previous') :
    SeveredSomewhere table previous text ↔ SeveredSomewhere table previous' text := by
  cases text with
  | nil => exact iff_of_false severedSomewhere_nil severedSomewhere_nil
  | cons c text => rw [severedSomewhere_cons, severedSomewhere_cons, same]

/-- No word starts inside a name or in front of the dot behind it. -/
theorem severedSomewhere_name {name : List Char} (word : ∀ c ∈ name, isWordChar c = true) :
    SeveredSomewhere table previous (name ++ '.' :: text) ↔
      (boundary previous = true ∧ Severed table (name ++ '.' :: text)) ∨
        SeveredSomewhere table (some '.') text := by
  induction name generalizing previous with
  | nil => exact severedSomewhere_cons
  | cons c name ih =>
      rw [List.forall_mem_cons] at word
      have inside : boundary (some c) = false := by rw [boundary_some, word.1, Bool.not_true]
      rw [List.cons_append, severedSomewhere_cons, ih word.2, inside]
      simp only [Bool.false_eq_true, false_and, false_or]

/-- The pass over a query ends inside a character exactly if a name is severed somewhere. Qualifiers are
passed over as a whole, but no word starts in them. -/
theorem stripAll_error_iff (word : ∀ c ∈ table, isWordChar c = true) :
    stripAll table previous text = .error .insideCharacter ↔
      SeveredSomewhere table previous text := by
  fun_induction stripAll table previous text with
  | case1 previous => exact iff_of_false (by simp) severedSomewhere_nil
  | case2 previous c text bound rest found ih =>
      have here : ¬Severed table (c :: text) := by
        rw [← qualifiedColumn_eq_insideCharacter_iff, found]
        simp
      obtain ⟨name, column, tail, split, spells, -, rfl⟩ :=
        (qualifiedColumn_eq_rest_iff word).mp found
      have same : boundary previous = boundary (some '.') := bound
      rw [split] at here ⊢
      rw [ih, severedSomewhere_name (spells.word word), severedSomewhere_congr same]
      simp only [here, and_false, false_or]
  | case3 previous c text bound missed ih =>
      have here : ¬Severed table (c :: text) := by
        rw [← qualifiedColumn_eq_insideCharacter_iff, missed]
        simp
      rw [Fallible.map_eq_error_iff, ih, severedSomewhere_cons]
      simp only [here, and_false, false_or]
  | case4 previous c text bound inside =>
      have here := qualifiedColumn_eq_insideCharacter_iff.mp inside
      exact iff_of_true rfl (severedSomewhere_cons.mpr (Or.inl ⟨bound, here⟩))
  | case5 previous c text bound ih =>
      rw [Fallible.map_eq_error_iff, ih, severedSomewhere_cons, or_iff_right]
      exact fun severed => bound severed.1

end Scans

section Answers

/-- A word of the condition is severed. -/
def SeveredInCondition (table query : List Char) : Prop :=
  ∃ j, First (ClauseAt ["where", "set"] query) j ∧
    ∃ k, j ≤ k ∧ BoundaryAt none query k ∧ BeginsWord (query.drop k) ∧ Severed table (query.drop k)

theorem SeveredInCondition.somewhere (severed : SeveredInCondition table query) :
    SeveredSomewhere table none query := by
  obtain ⟨j, -, k, -, bound, -, severed⟩ := severed
  exact ⟨k, bound, severed⟩

theorem severedInCondition_of_error {e : StripError}
    (answer : qualifiedInClause table query = .error e) : SeveredInCondition table query := by
  unfold qualifiedInClause at answer
  split at answer
  · simp at answer
  · rename_i body some_body
    obtain ⟨j, first, rfl⟩ := clauseBody?_eq_some_iff.mp some_body
    obtain ⟨i, clause, -⟩ := id first
    have severed := severed_of_anyQualified answer
    rw [exists_start_iff clause.boundaryAt_body] at severed
    exact ⟨j, first, severed⟩

theorem not_severedInCondition_of_unqualified
    (answer : qualifiedInClause table query = .ok false) : ¬SeveredInCondition table query := by
  intro severed
  obtain ⟨j, first, severed⟩ := severed
  have body := clauseBody?_eq_some_iff.mpr ⟨j, first, rfl⟩
  obtain ⟨i, clause, -⟩ := first
  rw [← exists_start_iff clause.boundaryAt_body] at severed
  obtain ⟨start, mem, severed⟩ := severed
  simp only [qualifiedInClause, body] at answer
  exact not_severed_of_anyQualified answer start mem severed

/-- The search for qualifiers ends inside a character: at a word of the condition, or, where the condition
has a qualified column, anywhere in the query. -/
def Interrupted (query : List Char) : Prop :=
  ∃ name table, First (TableClauseAt query) name ∧ AfterLastDot name table ∧ table ≠ [] ∧
    (SeveredInCondition table query ∨
      QualifiedInCondition table query ∧ SeveredSomewhere table none query)

theorem stripChars_error_iff_of_table {name : List Char} (found : findTableName? query = some name)
    (nonempty : lastPart name ≠ []) :
    stripChars query = .error .insideCharacter ↔
      SeveredInCondition (lastPart name) query ∨
        QualifiedInCondition (lastPart name) query ∧ SeveredSomewhere (lastPart name) none query := by
  have word := isWordChar_of_findTableName? found
  have opened : stripChars query = qualifiedInClause (lastPart name) query >>= fun qualified =>
      if qualified then stripAll (lastPart name) none query else .ok query := by
    simp only [stripChars, found, if_neg (mt List.isEmpty_iff.mp nonempty)]
  rw [opened, Fallible.bind_eq_error_iff]
  cases clause : qualifiedInClause (lastPart name) query with
  | error e =>
      obtain ⟨rfl, -⟩ := qualifiedInClause_error word clause
      exact iff_of_true (Or.inl rfl) (Or.inl (severedInCondition_of_error clause))
  | ok qualified =>
      have condition := qualifiedInClause_ok_iff word nonempty clause
      cases qualified with
      | false =>
          have missed := not_severedInCondition_of_unqualified clause
          have unqualified : ¬QualifiedInCondition (lastPart name) query :=
            mt condition.mpr Bool.false_ne_true
          simp [missed, unqualified]
      | true =>
          have is_qualified := condition.mp rfl
          simp only [reduceCtorEq, Except.ok.injEq, exists_eq_left', if_true, false_or,
            stripAll_error_iff word, is_qualified, true_and]
          exact (or_iff_right_of_imp SeveredInCondition.somewhere).symm

theorem stripChars_error_iff :
    stripChars query = .error .insideCharacter ↔ Interrupted query := by
  constructor
  · intro answer
    cases found : findTableName? query with
    | none => simp [stripChars, found] at answer
    | some name =>
        have nonempty : lastPart name ≠ [] := by
          intro empty
          simp [stripChars, found, empty] at answer
        refine ⟨name, lastPart name, findTableName?_eq_some_iff.mp found, afterLastDot_iff.mpr rfl,
          nonempty, ?_⟩
        exact (stripChars_error_iff_of_table found nonempty).mp answer
  · intro interrupted
    obtain ⟨name, table, first, after, nonempty, severed⟩ := interrupted
    have found := findTableName?_eq_some_iff.mpr first
    rw [afterLastDot_iff] at after
    subst after
    exact (stripChars_error_iff_of_table found nonempty).mpr severed

end Answers

/-- A query is answered or names no table, unless the search for qualifiers ends inside one of its
characters; and this takes a Kelvin sign. -/
theorem strip_answers (query : String) :
    (strip query = .error .insideCharacter ↔ Interrupted query.toList) ∧
      ((∃ result, strip query = .ok result) ∨ strip query = .error (.tableNotFound query) ↔
        ¬Interrupted query.toList) ∧
      (Interrupted query.toList → kelvinSign ∈ query.toList) := by
  have interrupted : strip query = .error .insideCharacter ↔ Interrupted query.toList := by
    rw [strip_eq_error_iff, stripChars_error_iff]
  refine ⟨interrupted, ?_, ?_⟩
  · rw [← interrupted]
    cases answer : strip query with
    | ok result => simp
    | error e =>
        rw [strip_eq_error_iff] at answer
        rcases stripChars_error answer with ⟨-, rfl⟩ | ⟨rfl, -⟩
        · simp
        · simp
  · intro severed
    rw [← stripChars_error_iff] at severed
    rcases stripChars_error severed with ⟨-, other⟩ | ⟨-, kelvin⟩
    · simp at other
    · exact kelvin

/-- No column is qualified, but a Kelvin sign stands for the last letter of the table. -/
def kelvinColumn : String := "select * from ok where o\u212a = 1"

/-- The stripper does not answer every query. -/
theorem strip_kelvinColumn : ¬∀ query : String,
    (∃ result, strip query = .ok result) ∨ strip query = .error (.tableNotFound query) := by
  intro answered
  have inside : strip kelvinColumn = .error .insideCharacter := by decide +kernel
  rcases answered kelvinColumn with ⟨result, same⟩ | same
  · rw [inside] at same
    cases same
  · rw [inside] at same
    cases same

end CqlStatements.Qualifier
