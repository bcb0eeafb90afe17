import CqlStatements.Proofs.Qualifier.WordStarts
import CqlStatements.Proofs.Runs

/-!
# Clauses of a query

A clause is a keyword at the front of a word, in any case, with spacing right behind it. The searches for
the table name and for the condition each stop at the first clause of their two keywords. No keyword
begins like the other one of its search, so it does not matter which of the two is tried first.
-/
namespace CqlStatements.Qualifier

/-- The text begins with spacing, and the body is all that follows it. -/
def Spaced (text body : List Char) : Prop :=
  ∃ spacing, text = spacing ++ body ∧ spacing ≠ [] ∧ (∀ c ∈ spacing, isSpacing c = true) ∧
    ∀ c ∈ body.head?, isSpacing c = false

/-- The text begins with one of the words and spacing, and the body is all that follows. -/
def Clause (words : List String) (text body : List Char) : Prop :=
  ∃ word ∈ words, ∃ name rest, text = name ++ rest ∧ Spells word.toList name ∧ Spaced rest body

/-- A clause of one of the words stands at position `i`, with its body at position `j`. -/
def ClauseAt (words : List String) (text : List Char) (i j : ℕ) : Prop :=
  BoundaryAt none text i ∧ j ≤ text.length ∧ Clause words (text.drop i) (text.drop j)

/-- A clause at position `i` names a table. -/
def TableClauseAt (text : List Char) (i : ℕ) (name : List Char) : Prop :=
  ∃ j, ClauseAt ["from", "update"] text i j ∧ name = (text.drop j).takeWhile isNameChar ∧ name ≠ []

/-- Two keywords in lower case that begin with different letters. -/
def Keywords (first second : String) : Prop :=
  first.toList.head? ≠ second.toList.head? ∧
    ∀ word ∈ [first, second],
      word.toList ≠ [] ∧ ∀ c ∈ word.toList, c.toLower = c ∧ isWordChar c = true

/-- The check goes over the letters of the words, not over all characters. -/
instance (first second : String) : Decidable (Keywords first second) :=
  decidable_of_iff
    (first.toList.head? ≠ second.toList.head? ∧
      ([first, second].all fun word =>
        !word.toList.isEmpty && word.toList.all fun c => c.toLower == c && isWordChar c) = true)
    (by simp [Keywords])

theorem keywords_from_update : Keywords "from" "update" := by decide

theorem keywords_where_set : Keywords "where" "set" := by decide

theorem afterKeyword?_eq_some_iff {word text rest : List Char}
    (lower : ∀ c ∈ word, c.toLower = c) :
    afterKeyword? word text = some rest ↔ ∃ name, text = name ++ rest ∧ Spells word name := by
  induction word generalizing text with
  | nil =>
      simp only [afterKeyword?, Option.some.injEq]
      constructor
      · intro same
        exact ⟨[], same, rfl⟩
      · intro found
        obtain ⟨name, rfl, spells⟩ := found
        obtain rfl := List.eq_nil_of_length_eq_zero spells.length_eq
        rfl
  | cons letter word ih =>
      rw [List.forall_mem_cons] at lower
      cases text with
      | nil =>
          simp only [afterKeyword?, reduceCtorEq, false_iff]
          intro found
          obtain ⟨name, same, spells⟩ := found
          obtain ⟨rfl, -⟩ := List.nil_eq_append_iff.mp same
          simp [Spells] at spells
      | cons c text =>
          simp only [afterKeyword?, beq_iff_eq]
          constructor
          · intro found
            split at found
            · rename_i same
              obtain ⟨name, rfl, spells⟩ := (ih lower.2).mp found
              refine ⟨c :: name, rfl, Spells.cons_iff.mpr ⟨?_, spells⟩⟩
              rw [same, lower.1]
            · simp at found
          · intro found
            obtain ⟨name, same, spells⟩ := found
            cases name with
            | nil => simp [Spells] at spells
            | cons first name =>
                obtain ⟨rfl, rfl⟩ := List.cons.inj same
                rw [Spells.cons_iff, lower.1] at spells
                rw [if_pos spells.1]
                exact (ih lower.2).mpr ⟨name, rfl, spells.2⟩

theorem Spaced.head?_spacing {text body : List Char} (spaced : Spaced text body) :
    ∀ c ∈ text.head?, isSpacing c = true := by
  obtain ⟨spacing, rfl, nonempty, all, -⟩ := spaced
  cases spacing with
  | nil => exact absurd rfl nonempty
  | cons first spacing =>
      intro c head
      obtain rfl := Option.some.inj head
      exact all first List.mem_cons_self

theorem Spaced.head?_not_word {text body : List Char} (spaced : Spaced text body) :
    ∀ c ∈ text.head?, isWordChar c = false :=
  fun c head => isWordChar_of_isSpacing (spaced.head?_spacing c head)

theorem afterSpacing?_eq_some_iff {text body : List Char} :
    afterSpacing? text = some body ↔ Spaced text body := by
  constructor
  · intro found
    cases text with
    | nil => simp [afterSpacing?] at found
    | cons c text =>
        simp only [afterSpacing?] at found
        split at found
        · rename_i first
          obtain rfl := Option.some.inj found
          refine ⟨c :: text.takeWhile isSpacing, ?_, by simp, ?_, ?_⟩
          · rw [List.cons_append, List.takeWhile_append_dropWhile]
          · rw [List.forall_mem_cons]
            exact ⟨first, fun d mem => List.mem_takeWhile_imp mem⟩
          · exact Text.head?_dropWhile_run isSpacing text
        · simp at found
  · intro spaced
    obtain ⟨spacing, rfl, nonempty, all, stops⟩ := spaced
    cases spacing with
    | nil => exact absurd rfl nonempty
    | cons c spacing =>
        rw [List.forall_mem_cons] at all
        simp only [List.cons_append, afterSpacing?, all.1, if_true]
        rw [Text.dropWhile_run all.2 stops]

/-- The two keywords do not both begin one text. -/
theorem Keywords.apart {first second : String} (keywords : Keywords first second)
    {text rest : List Char} (found : afterKeyword? first.toList text = some rest) :
    afterKeyword? second.toList text = none := by
  obtain ⟨heads, words⟩ := keywords
  have first_word := words first (by simp)
  have second_word := words second (by simp)
  cases first_eq : first.toList with
  | nil => exact absurd first_eq first_word.1
  | cons a as =>
      cases second_eq : second.toList with
      | nil => exact absurd second_eq second_word.1
      | cons b bs =>
          cases text with
          | nil => rfl
          | cons c text =>
              rw [first_eq, second_eq] at heads
              rw [first_eq] at found
              simp only [afterKeyword?, beq_iff_eq] at found ⊢
              split at found
              · rename_i same
                rw [if_neg]
                intro same'
                exact heads (congrArg some (same.symm.trans same'))
              · simp at found

theorem afterClause?_eq_some_iff {first second : String} (keywords : Keywords first second)
    {text body : List Char} :
    afterClause? first second text = some body ↔ Clause [first, second] text body := by
  have first_lower := fun c mem => ((keywords.2 first (by simp)).2 c mem).1
  have second_lower := fun c mem => ((keywords.2 second (by simp)).2 c mem).1
  have either : ∀ rest, (afterKeyword? first.toList text).or (afterKeyword? second.toList text) =
      some rest ↔ ∃ word ∈ [first, second], ∃ name, text = name ++ rest ∧ Spells word.toList name := by
    intro rest
    simp only [List.mem_cons, List.not_mem_nil, or_false, exists_eq_or_imp, exists_eq_left,
      ← afterKeyword?_eq_some_iff first_lower, ← afterKeyword?_eq_some_iff second_lower]
    rw [Option.or_eq_some_iff]
    constructor
    · intro found
      rcases found with found | ⟨-, found⟩
      · exact Or.inl found
      · exact Or.inr found
    · intro found
      rcases found with found | found
      · exact Or.inl found
      · right
        refine ⟨?_, found⟩
        rw [Option.eq_none_iff_forall_ne_some]
        intro other found_first
        rw [keywords.apart found_first] at found
        simp at found
  simp only [afterClause?, Option.bind_eq_some_iff, either, afterSpacing?_eq_some_iff, Clause]
  constructor
  · intro found
    obtain ⟨rest, ⟨word, mem, name, same, spells⟩, spaced⟩ := found
    exact ⟨word, mem, name, rest, same, spells, spaced⟩
  · intro found
    obtain ⟨word, mem, name, rest, same, spells, spaced⟩ := found
    exact ⟨rest, ⟨word, mem, name, same, spells⟩, spaced⟩

theorem tableName?_eq_some_iff {text name : List Char} :
    tableName? text = some name ↔
      ∃ body, Clause ["from", "update"] text body ∧ name = body.takeWhile isNameChar ∧ name ≠ [] := by
  simp only [← afterClause?_eq_some_iff keywords_from_update, tableName?]
  constructor
  · intro found
    split at found
    · rename_i c rest mapped
      obtain ⟨body, clause, same⟩ := Option.map_eq_some_iff.mp mapped
      obtain rfl := Option.some.inj found
      exact ⟨body, clause, same.symm, by simp⟩
    · simp at found
  · intro found
    obtain ⟨body, clause, rfl, nonempty⟩ := found
    rw [clause, Option.map_some]
    cases run : body.takeWhile isNameChar with
    | nil => exact absurd run nonempty
    | cons c rest => rfl

theorem Clause.beginsWord {first second : String} (keywords : Keywords first second)
    {text body : List Char} (clause : Clause [first, second] text body) : BeginsWord text := by
  obtain ⟨word, mem, name, rest, rfl, spells, -⟩ := clause
  have letters := keywords.2 word mem
  exact beginsWord_of_spells spells (fun c mem => (letters.2 c mem).2) letters.1 rest

/-- The word at the front of a text is the keyword, or there is no clause. -/
theorem clause_word_iff {first second : String} (keywords : Keywords first second)
    {name rest body : List Char} (word : ∀ c ∈ name, isWordChar c = true)
    (stop : ∀ c ∈ rest.head?, isWordChar c = false) :
    Clause [first, second] (name ++ rest) body ↔
      (∃ key ∈ [first, second], Spells key.toList name) ∧ Spaced rest body := by
  constructor
  · intro clause
    obtain ⟨key, mem, name', rest', same, spells, spaced⟩ := clause
    have letters := spells.word fun c in_key => ((keywords.2 key mem).2 c in_key).2
    obtain ⟨rfl, rfl⟩ := Text.run_append_inj word stop letters spaced.head?_not_word same
    exact ⟨⟨key, mem, spells⟩, spaced⟩
  · intro found
    obtain ⟨⟨key, mem, spells⟩, spaced⟩ := found
    exact ⟨key, mem, name, rest, rfl, spells, spaced⟩

/-- A word names no table if it is no keyword or has no spacing behind it. -/
theorem tableName?_word_eq_none {name : List Char} {separator : Char}
    (word : ∀ c ∈ name, isWordChar c = true) (stop : isWordChar separator = false)
    (apart : (∃ key ∈ ["from", "update"], Spells key.toList name) → isSpacing separator = false)
    (text : List Char) : tableName? (name ++ separator :: text) = none := by
  rw [Option.eq_none_iff_forall_ne_some]
  intro run found
  obtain ⟨body, clause, -⟩ := tableName?_eq_some_iff.mp found
  rw [clause_word_iff keywords_from_update word (by simpa using stop)] at clause
  obtain ⟨key, spaced⟩ := clause
  have spacing := spaced.head?_spacing separator rfl
  rw [apart key] at spacing
  exact absurd spacing (by decide)

theorem Spaced.suffix {text body : List Char} (spaced : Spaced text body) : body <:+ text := by
  obtain ⟨spacing, rfl, -⟩ := spaced
  exact List.suffix_append spacing body

theorem Clause.suffix {words : List String} {text body : List Char}
    (clause : Clause words text body) : body <:+ text := by
  obtain ⟨word, -, name, rest, rfl, -, spaced⟩ := clause
  exact spaced.suffix.trans (List.suffix_append name rest)

/-- The body of a clause is a rest of the whole text. -/
theorem exists_clauseAt_iff {words : List String} {text body : List Char} {i : ℕ} :
    (∃ j, ClauseAt words text i j ∧ body = text.drop j) ↔
      BoundaryAt none text i ∧ Clause words (text.drop i) body := by
  constructor
  · intro found
    obtain ⟨j, ⟨bound, -, clause⟩, rfl⟩ := found
    exact ⟨bound, clause⟩
  · intro found
    obtain ⟨bound, clause⟩ := found
    have suffix := clause.suffix.trans (List.drop_suffix i text)
    have same := List.suffix_iff_eq_drop.mp suffix
    refine ⟨text.length - body.length, ⟨bound, Nat.sub_le _ _, ?_⟩, same⟩
    rw [← same]
    exact clause

theorem findTableName?_eq_some_iff {query name : List Char} :
    findTableName? query = some name ↔ First (TableClauseAt query) name := by
  have begins : ∀ text name, tableName? text = some name → BeginsWord text := by
    intro text name found
    obtain ⟨body, clause, -⟩ := tableName?_eq_some_iff.mp found
    exact clause.beginsWord keywords_from_update
  rw [findTableName?, findSome?_wordStarts begins]
  apply First.congr
  intro i name
  rw [tableName?_eq_some_iff]
  constructor
  · intro found
    obtain ⟨bound, body, clause, same, nonempty⟩ := found
    obtain ⟨j, at_j, rfl⟩ := exists_clauseAt_iff.mpr ⟨bound, clause⟩
    exact ⟨j, at_j, same, nonempty⟩
  · intro found
    obtain ⟨j, at_j, same, nonempty⟩ := found
    exact ⟨at_j.1, query.drop j, at_j.2.2, same, nonempty⟩

theorem findTableName?_eq_none_iff {query : List Char} :
    findTableName? query = none ↔ ∀ i name, ¬TableClauseAt query i name := by
  constructor
  · intro missed i name clause
    obtain ⟨first, is_first⟩ := First.exists clause
    rw [← findTableName?_eq_some_iff, missed] at is_first
    simp at is_first
  · intro none_at
    rw [Option.eq_none_iff_forall_ne_some]
    intro name found
    obtain ⟨i, clause, -⟩ := findTableName?_eq_some_iff.mp found
    exact none_at i name clause

theorem clauseBody?_eq_some_iff {query body : List Char} :
    clauseBody? query = some body ↔
      ∃ j, First (ClauseAt ["where", "set"] query) j ∧ body = query.drop j := by
  have begins : ∀ text body, afterClause? "where" "set" text = some body → BeginsWord text := by
    intro text body found
    exact ((afterClause?_eq_some_iff keywords_where_set).mp found).beginsWord keywords_where_set
  rw [clauseBody?, findSome?_wordStarts begins]
  simp only [afterClause?_eq_some_iff keywords_where_set, ← exists_clauseAt_iff, First]
  constructor
  · intro first
    obtain ⟨i, ⟨j, at_j, same⟩, earlier⟩ := first
    refine ⟨j, ⟨i, at_j, ?_⟩, same⟩
    intro k lt other at_other
    exact earlier k lt (query.drop other) ⟨other, at_other, rfl⟩
  · intro first
    obtain ⟨j, ⟨i, at_j, earlier⟩, same⟩ := first
    refine ⟨i, ⟨j, at_j, same⟩, ?_⟩
    intro k lt other at_other
    obtain ⟨j', at_j', -⟩ := at_other
    exact earlier k lt j' at_j'

/-- A clause is a keyword with spacing, cut out of the text. -/
theorem ClauseAt.split {words : List String} {text : List Char} {i j : ℕ}
    (clause : ClauseAt words text i j) :
    ∃ word ∈ words, ∃ name spacing, Spells word.toList name ∧ spacing ≠ [] ∧
      (∀ c ∈ spacing, isSpacing c = true) ∧ text.drop i = name ++ (spacing ++ text.drop j) ∧
      j = i + name.length + spacing.length := by
  obtain ⟨-, le, word, mem, name, rest, split, spells, spacing, rfl, nonempty, all, -⟩ := clause
  have length := congrArg List.length split
  have pos : 0 < spacing.length := List.length_pos_iff.mpr nonempty
  simp only [List.length_append, List.length_drop] at length
  exact ⟨word, mem, name, spacing, spells, nonempty, all, split, by omega⟩

/-- The body of a clause begins behind spacing. -/
theorem ClauseAt.boundaryAt_body {words : List String} {text : List Char} {i j : ℕ}
    (clause : ClauseAt words text i j) : BoundaryAt none text j := by
  obtain ⟨word, -, name, spacing, -, nonempty, all, split, rfl⟩ := clause.split
  have pos : 0 < spacing.length := List.length_pos_iff.mpr nonempty
  obtain ⟨k, length⟩ := Nat.exists_eq_succ_of_ne_zero (Nat.ne_of_gt pos)
  have lt : k < spacing.length := by omega
  have before : text[i + name.length + k]? = some spacing[k] := by
    rw [Nat.add_assoc, ← List.getElem?_drop, split, List.getElem?_append_right (Nat.le_add_right ..),
      Nat.add_sub_cancel_left, List.getElem?_append_left lt, List.getElem?_eq_getElem lt]
  have not_word := isWordChar_of_isSpacing (all spacing[k] (List.getElem_mem lt))
  rw [length, Nat.succ_eq_add_one, ← Nat.add_assoc]
  simp only [BoundaryAt, characterBefore, before, boundary_some, not_word, Bool.not_false]

/-- No word starts between a clause and its body. -/
theorem ClauseAt.le_of_beginsWord {first second : String} (keywords : Keywords first second)
    {text : List Char} {i j k : ℕ} (clause : ClauseAt [first, second] text i j) (lt : i < k)
    (bound : BoundaryAt none text k) (begins : BeginsWord (text.drop k)) : j ≤ k := by
  obtain ⟨word, mem, name, spacing, spells, -, all, split, rfl⟩ := clause.split
  have letters := spells.word fun c in_word => ((keywords.2 word mem).2 c in_word).2
  obtain ⟨d, rfl⟩ := Nat.exists_eq_add_of_lt lt
  by_contra before
  by_cases within : d + 1 ≤ name.length
  · have inside : text[i + d]? = some name[d] := by
      rw [← List.getElem?_drop, split, List.getElem?_append_left within,
        List.getElem?_eq_getElem within]
    have is_word := letters name[d] (List.getElem_mem within)
    simp only [BoundaryAt, characterBefore, inside, boundary_some, is_word, Bool.not_true,
      Bool.false_eq_true] at bound
  · obtain ⟨e, length⟩ := Nat.exists_eq_add_of_le (Nat.le_of_not_le within)
    have lt : e < spacing.length := by omega
    have inside : text[i + d + 1]? = some spacing[e] := by
      have shift : i + d + 1 = i + (name.length + e) := by omega
      rw [shift, ← List.getElem?_drop, split, List.getElem?_append_right (Nat.le_add_right ..),
        Nat.add_sub_cancel_left, List.getElem?_append_left lt, List.getElem?_eq_getElem lt]
    have not_word := isWordChar_of_isSpacing (all spacing[e] (List.getElem_mem lt))
    obtain ⟨c, rest, drop_eq, is_word⟩ := begins
    have head : text[i + d + 1]? = some c := by
      rw [← List.head?_drop, drop_eq, List.head?_cons]
    obtain rfl := Option.some.inj (inside.symm.trans head)
    rw [not_word] at is_word
    exact absurd is_word (by decide)

/-- A word behind the body of any clause is behind the body of the first one. -/
theorem le_of_first_clause {first second : String} (keywords : Keywords first second)
    {text : List Char} {i j j' k : ℕ} (is_first : First (ClauseAt [first, second] text) j)
    (clause : ClauseAt [first, second] text i j') (le : j' ≤ k) (bound : BoundaryAt none text k)
    (begins : BeginsWord (text.drop k)) : j ≤ k := by
  obtain ⟨i₀, clause₀, earlier⟩ := is_first
  have order : i₀ ≤ i := by
    by_contra before
    exact earlier i (Nat.lt_of_not_le before) j' clause
  have body : i < j' := by
    obtain ⟨word, -, name, spacing, -, nonempty, -, -, rfl⟩ := clause.split
    have pos : 0 < spacing.length := List.length_pos_iff.mpr nonempty
    omega
  exact clause₀.le_of_beginsWord keywords (by omega) bound begins

end CqlStatements.Qualifier
