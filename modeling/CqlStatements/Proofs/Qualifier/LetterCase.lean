import CqlStatements.Proofs.Qualifier.Searches
import CqlStatements.Proofs.Qualifier.Stripping
import CqlStatements.Text

/-!
# Queries in another case

Every stage of the stripper sees letters only up to their case, and what a stage hands on is cut out of
the text it was given. So a stage that is given the text in lower case hands on the same in lower case.
Lower case changes no position, no byte length and no word, and the Kelvin sign is in lower case already.
-/
namespace CqlStatements.Qualifier

section Letters

variable {c d : Char}

theorem toLower_toLower (c : Char) : c.toLower.toLower = c.toLower := by
  rw [← Char.toNat_inj, toNat_toLower c.toLower, if_neg]
  rw [toNat_toLower c]
  split <;> omega

/-- Only word characters have a lower case of their own. -/
theorem toLower_eq_or_word (c : Char) :
    c.toLower = c ∨ (isWordChar c = true ∧ isWordChar c.toLower = true) := by
  rw [isWordChar_toLower, and_self, isWordChar_iff, ← Char.toNat_inj, toNat_toLower]
  split <;> omega

theorem toLower_beq (other : isWordChar d = false) : (c.toLower == d) = (c == d) := by
  rw [Bool.eq_iff_iff, beq_iff_eq, beq_iff_eq]
  rcases toLower_eq_or_word c with same | ⟨word, word'⟩
  · rw [same]
  · refine iff_of_false ?_ ?_
    · intro same
      rw [same, other] at word'
      exact absurd word' (by decide)
    · intro same
      rw [same, other] at word
      exact absurd word (by decide)

theorem isSpacing_toLower (c : Char) : isSpacing c.toLower = isSpacing c := by
  rw [isSpacing, toLower_beq (d := ' ') (by decide), toLower_beq (d := '\t') (by decide),
    toLower_beq (d := '\r') (by decide), toLower_beq (d := '\n') (by decide), isSpacing]

theorem isNameChar_toLower (c : Char) : isNameChar c.toLower = isNameChar c := by
  rw [isNameChar, isWordChar_toLower, toLower_beq (d := '.') (by decide), isNameChar]

theorem utf8Size_toLower (c : Char) : c.toLower.utf8Size = c.utf8Size := by
  rcases toLower_eq_or_word c with same | ⟨word, word'⟩
  · rw [same]
  · rw [utf8Size_of_isWordChar word, utf8Size_of_isWordChar word']

theorem sameLetter_toLower (letter c : Char) :
    sameLetter letter.toLower c.toLower = sameLetter letter c := by
  rw [sameLetter, toLower_toLower, toLower_toLower, toLower_beq (d := kelvinSign) (by decide),
    sameLetter]

theorem boundary_toLower (c : Char) : boundary (some c.toLower) = boundary (some c) := by
  rw [boundary_some, boundary_some, isWordChar_toLower]

end Letters

section Matches

theorem agree_lower (name text : List Char) :
    agree (name.map Char.toLower) (text.map Char.toLower) = agree name text := by
  induction name generalizing text with
  | nil => simp only [List.map_nil, agree]
  | cons letter name ih =>
      cases text with
      | nil => simp only [List.map_nil, List.map_cons, agree]
      | cons c text => simp only [List.map_cons, agree, sameLetter_toLower, ih]

theorem byteLength_lower (text : List Char) :
    byteLength (text.map Char.toLower) = byteLength text := by
  induction text with
  | nil => rfl
  | cons c text ih => simp only [List.map_cons, byteLength, utf8Size_toLower, ih]

/-- What was found, with the rest of the text in lower case. -/
def Match.lower : Match → Match
  | rest text => rest (text.map Char.toLower)
  | mismatch => mismatch
  | insideCharacter => insideCharacter

theorem dropBytes_lower (text : List Char) (n : ℕ) :
    dropBytes (text.map Char.toLower) n = (dropBytes text n).lower := by
  fun_induction dropBytes text n with
  | case1 text => simp only [dropBytes, Match.lower]
  | case2 n => simp only [List.map_nil, dropBytes, Match.lower]
  | case3 c text n short =>
      simp only [List.map_cons, dropBytes, utf8Size_toLower, if_pos short, Match.lower]
  | case4 c text n fits ih =>
      simp only [List.map_cons, dropBytes, utf8Size_toLower, if_neg fits, ih]

theorem matchName_lower (name text : List Char) :
    matchName (name.map Char.toLower) (text.map Char.toLower) = (matchName name text).lower := by
  rw [matchName, matchName, agree_lower, byteLength_lower, dropBytes_lower]
  split <;> rfl

theorem qualifiedColumn_lower (table text : List Char) :
    qualifiedColumn (table.map Char.toLower) (text.map Char.toLower) =
      (qualifiedColumn table text).lower := by
  cases matched : matchName table text with
  | mismatch => simp only [qualifiedColumn, matchName_lower, matched, Match.lower]
  | insideCharacter => simp only [qualifiedColumn, matchName_lower, matched, Match.lower]
  | rest behind =>
      cases behind with
      | nil => simp only [qualifiedColumn, matchName_lower, matched, Match.lower, List.map_nil]
      | cons d behind =>
          by_cases dot : d = '.'
          · have lower_dot : '.'.toLower = '.' := by decide
            rw [dot] at matched
            cases behind with
            | nil =>
                simp only [qualifiedColumn, matchName_lower, matched, Match.lower, List.map_cons,
                  List.map_nil, lower_dot]
            | cons c behind =>
                simp only [qualifiedColumn, matchName_lower, matched, Match.lower, List.map_cons,
                  lower_dot, isWordChar_toLower]
                split <;> rfl
          · have lower_other : d.toLower ≠ '.' := by
              rw [ne_eq, ← beq_iff_eq, toLower_beq (by decide), beq_iff_eq]
              exact dot
            simp [qualifiedColumn, matchName_lower, matched, Match.lower, dot, lower_other]

end Matches

section Searches

theorem afterKeyword?_lower (word text : List Char) :
    afterKeyword? word (text.map Char.toLower) =
      (afterKeyword? word text).map (List.map Char.toLower) := by
  induction word generalizing text with
  | nil => rfl
  | cons letter word ih =>
      cases text with
      | nil => rfl
      | cons c text =>
          simp only [List.map_cons, afterKeyword?, toLower_toLower]
          split
          · exact ih text
          · rfl

theorem takeWhile_lower {kind : Char → Bool} (same : ∀ c, kind c.toLower = kind c) (text : List Char) :
    (text.map Char.toLower).takeWhile kind = (text.takeWhile kind).map Char.toLower := by
  rw [List.takeWhile_map]
  exact congrArg (fun kind => (text.takeWhile kind).map Char.toLower) (funext same)

theorem dropWhile_lower {kind : Char → Bool} (same : ∀ c, kind c.toLower = kind c) (text : List Char) :
    (text.map Char.toLower).dropWhile kind = (text.dropWhile kind).map Char.toLower := by
  rw [List.dropWhile_map]
  exact congrArg (fun kind => (text.dropWhile kind).map Char.toLower) (funext same)

theorem afterSpacing?_lower (text : List Char) :
    afterSpacing? (text.map Char.toLower) = (afterSpacing? text).map (List.map Char.toLower) := by
  cases text with
  | nil => rfl
  | cons c text =>
      simp only [List.map_cons, afterSpacing?, isSpacing_toLower, dropWhile_lower isSpacing_toLower]
      split <;> rfl

theorem afterClause?_lower (first second : String) (text : List Char) :
    afterClause? first second (text.map Char.toLower) =
      (afterClause? first second text).map (List.map Char.toLower) := by
  rw [afterClause?, afterClause?, afterKeyword?_lower, afterKeyword?_lower, ← Option.map_or]
  cases (afterKeyword? first.toList text).or (afterKeyword? second.toList text) with
  | none => rfl
  | some rest => exact afterSpacing?_lower rest

theorem tableName?_lower (text : List Char) :
    tableName? (text.map Char.toLower) = (tableName? text).map (List.map Char.toLower) := by
  rw [tableName?_eq, tableName?_eq, afterClause?_lower]
  cases afterClause? "from" "update" text with
  | none => rfl
  | some body =>
      simp only [Option.map_some, takeWhile_lower isNameChar_toLower, Option.filter_some,
        List.isEmpty_map]
      split <;> rfl

theorem wordStarts_lower (previous : Option Char) (text : List Char) :
    wordStarts previous (text.map Char.toLower) =
      (wordStarts previous text).map (List.map Char.toLower) := by
  induction text generalizing previous with
  | nil => rfl
  | cons c text ih =>
      simp only [List.map_cons, wordStarts, isWordChar_toLower, wordStarts_congr (boundary_toLower c),
        ih]
      split <;> rfl

/-- A search over the word starts finds the same in lower case. -/
theorem findSome?_lower {find : List Char → Option (List Char)}
    (each : ∀ text, find (text.map Char.toLower) = (find text).map (List.map Char.toLower))
    (text : List Char) :
    (wordStarts none (text.map Char.toLower)).findSome? find =
      ((wordStarts none text).findSome? find).map (List.map Char.toLower) := by
  rw [wordStarts_lower, List.findSome?_map, List.map_findSome?]
  exact congrArg (fun find => (wordStarts none text).findSome? find) (funext each)

theorem findTableName?_lower (query : List Char) :
    findTableName? (query.map Char.toLower) = (findTableName? query).map (List.map Char.toLower) :=
  findSome?_lower tableName?_lower query

theorem clauseBody?_lower (query : List Char) :
    clauseBody? (query.map Char.toLower) = (clauseBody? query).map (List.map Char.toLower) :=
  findSome?_lower (afterClause?_lower "where" "set") query

theorem lastPart_lower (name : List Char) :
    lastPart (name.map Char.toLower) = (lastPart name).map Char.toLower := by
  have same : ∀ c : Char, (c.toLower != '.') = (c != '.') := by
    intro c
    rw [bne, bne, toLower_beq (by decide)]
  rw [lastPart, lastPart, ← List.map_reverse, takeWhile_lower same, List.map_reverse]

end Searches

section Deletions

theorem anyQualified_lower (table : List Char) (starts : List (List Char)) :
    anyQualified (table.map Char.toLower) (starts.map (List.map Char.toLower)) =
      anyQualified table starts := by
  induction starts with
  | nil => rfl
  | cons start starts ih =>
      simp only [List.map_cons, anyQualified, qualifiedColumn_lower, ih]
      cases qualifiedColumn table start <;> rfl

theorem qualifiedInClause_lower (table query : List Char) :
    qualifiedInClause (table.map Char.toLower) (query.map Char.toLower) =
      qualifiedInClause table query := by
  rw [qualifiedInClause, qualifiedInClause, clauseBody?_lower]
  cases clauseBody? query with
  | none => rfl
  | some body =>
      rw [Option.map_some]
      dsimp only
      rw [wordStarts_lower, anyQualified_lower]

variable {table text rest : List Char} {previous previous' : Option Char} {c : Char}

theorem stripAll_qualified (bound : boundary previous = true)
    (found : qualifiedColumn table (c :: text) = .rest rest) :
    stripAll table previous (c :: text) = stripAll table previous rest := by
  rw [stripAll, if_pos bound]
  split
  · rename_i other found'
    rw [found] at found'
    obtain rfl := Match.rest.inj found'
    rfl
  all_goals simp_all

theorem stripAll_kept
    (missed : boundary previous = true → qualifiedColumn table (c :: text) = .mismatch) :
    stripAll table previous (c :: text) = (c :: ·) <$> stripAll table (some c) text := by
  rw [stripAll]
  split
  · rename_i bound
    split <;> simp_all
  · rfl

theorem stripAll_inside (bound : boundary previous = true)
    (inside : qualifiedColumn table (c :: text) = .insideCharacter) :
    stripAll table previous (c :: text) = .error .insideCharacter := by
  rw [stripAll, if_pos bound]
  split <;> simp_all

/-- The pass over a query in lower case leaves in lower case what the pass over the query leaves. The two
carry different characters along, of which only the boundary counts. -/
theorem stripAll_lower (same : boundary previous' = boundary previous) :
    stripAll (table.map Char.toLower) previous' (text.map Char.toLower) =
      List.map Char.toLower <$> stripAll table previous text := by
  fun_induction stripAll table previous text generalizing previous' with
  | case1 previous =>
      rw [List.map_nil, stripAll]
      rfl
  | case2 previous c text bound rest found ih =>
      have found' := qualifiedColumn_lower table (c :: text)
      rw [found] at found'
      rw [List.map_cons, stripAll_qualified (same.trans bound) found']
      exact ih same
  | case3 previous c text bound missed ih =>
      have missed' := qualifiedColumn_lower table (c :: text)
      rw [missed] at missed'
      rw [List.map_cons, stripAll_kept fun _ => missed', ih (boundary_toLower c)]
      cases stripAll table (some c) text <;> rfl
  | case4 previous c text bound inside =>
      have inside' := qualifiedColumn_lower table (c :: text)
      rw [inside] at inside'
      rw [List.map_cons, stripAll_inside (same.trans bound) inside']
      rfl
  | case5 previous c text bound ih =>
      have apart : ¬boundary previous' = true := by rwa [same]
      rw [List.map_cons, stripAll_kept fun bound' => absurd bound' apart, ih (boundary_toLower c)]
      cases stripAll table (some c) text <;> rfl

end Deletions

section Positions

variable {table text query : List Char}

theorem boundaryAt_lower {i : ℕ} :
    BoundaryAt none (text.map Char.toLower) i ↔ BoundaryAt none text i := by
  cases i with
  | zero => rfl
  | succ i =>
      simp only [BoundaryAt, characterBefore, List.getElem?_map]
      cases text[i]? with
      | none => rfl
      | some c => rw [Option.map_some, boundary_toLower]

theorem qualified_lower (word : ∀ c ∈ table, isWordChar c = true) :
    Qualified (table.map Char.toLower) (text.map Char.toLower) ↔ Qualified table text := by
  have word' : ∀ c ∈ table.map Char.toLower, isWordChar c = true := by
    rw [List.forall_mem_map]
    intro c mem
    rw [isWordChar_toLower]
    exact word c mem
  rw [← exists_qualifiedColumn_iff word', ← exists_qualifiedColumn_iff word, qualifiedColumn_lower]
  cases qualifiedColumn table text <;> simp [Match.lower]

theorem qualifiedAt_lower (word : ∀ c ∈ table, isWordChar c = true) {i : ℕ} :
    QualifiedAt (table.map Char.toLower) none (text.map Char.toLower) i ↔
      QualifiedAt table none text i := by
  rw [QualifiedAt, QualifiedAt, boundaryAt_lower, ← List.map_drop, qualified_lower word]

theorem inQualifier_lower (word : ∀ c ∈ table, isWordChar c = true) {k : ℕ} :
    InQualifier (table.map Char.toLower) none (text.map Char.toLower) k ↔
      InQualifier table none text k := by
  simp only [InQualifier, List.length_map, qualifiedAt_lower word]

/-- A clause keeps its place and its body. -/
theorem clauseAt_lower {first second : String} (keywords : Keywords first second) {i j : ℕ} :
    ClauseAt [first, second] (text.map Char.toLower) i j ↔ ClauseAt [first, second] text i j := by
  rw [ClauseAt, ClauseAt, boundaryAt_lower, List.length_map, ← List.map_drop, ← List.map_drop,
    ← afterClause?_eq_some_iff keywords, ← afterClause?_eq_some_iff keywords, afterClause?_lower]
  cases found : afterClause? first second (text.drop i) with
  | none => simp only [Option.map_none, reduceCtorEq]
  | some body =>
      simp only [Option.map_some, Option.some.injEq]
      -- both are rests of the text, so their lengths tell them apart
      have of_length : body.length = (text.drop j).length → body = text.drop j := by
        intro length
        have body_suffix : body <:+ text :=
          ((afterClause?_eq_some_iff keywords).mp found).suffix.trans (List.drop_suffix i text)
        have drop_suffix := List.drop_suffix j text
        exact (List.suffix_of_suffix_length_le body_suffix drop_suffix length.le).eq_of_length length
      have same : body.map Char.toLower = (text.drop j).map Char.toLower ↔ body = text.drop j := by
        constructor
        · intro lower
          have length := congrArg List.length lower
          rw [List.length_map, List.length_map] at length
          exact of_length length
        · exact congrArg (List.map Char.toLower)
      rw [same]

theorem qualifiedInCondition_lower (word : ∀ c ∈ table, isWordChar c = true) :
    QualifiedInCondition (table.map Char.toLower) (query.map Char.toLower) ↔
      QualifiedInCondition table query := by
  simp only [QualifiedInCondition, First, clauseAt_lower keywords_where_set, qualifiedAt_lower word]

/-- The stripper takes the character at the position away. -/
def DeletedAt (query : List Char) (k : ℕ) : Prop :=
  ∃ name table, First (TableClauseAt query) name ∧ AfterLastDot name table ∧ table ≠ [] ∧
    QualifiedInCondition table query ∧ InQualifier table none query k

theorem deletedAt_iff {name : List Char} (found : findTableName? query = some name) {k : ℕ} :
    DeletedAt query k ↔ lastPart name ≠ [] ∧ QualifiedInCondition (lastPart name) query ∧
      InQualifier (lastPart name) none query k := by
  constructor
  · intro deleted
    obtain ⟨other, table, first, after, gone⟩ := deleted
    rw [← findTableName?_eq_some_iff, found] at first
    obtain rfl := Option.some.inj first
    rw [afterLastDot_iff] at after
    rwa [← after]
  · intro gone
    exact ⟨name, lastPart name, findTableName?_eq_some_iff.mp found, afterLastDot_iff.mpr rfl, gone⟩

theorem not_deletedAt (missed : findTableName? query = none) {k : ℕ} : ¬DeletedAt query k := by
  intro deleted
  obtain ⟨name, table, first, -⟩ := deleted
  rw [← findTableName?_eq_some_iff, missed] at first
  simp at first

theorem deletedAt_lower {k : ℕ} : DeletedAt (query.map Char.toLower) k ↔ DeletedAt query k := by
  have lower := findTableName?_lower query
  cases found : findTableName? query with
  | none =>
      rw [found] at lower
      exact iff_of_false (not_deletedAt lower) (not_deletedAt found)
  | some name =>
      rw [found] at lower
      have word := isWordChar_of_findTableName? found
      rw [deletedAt_iff lower, deletedAt_iff found, lastPart_lower, qualifiedInCondition_lower word,
        inQualifier_lower word, ne_eq, List.map_eq_nil_iff]

/-- An answer is what the deleted positions leave. -/
theorem exists_keepAt_of_stripChars {result : List Char} (answer : stripChars query = .ok result) :
    ∃ keep : ℕ → Bool, (∀ k, keep k = true ↔ ¬DeletedAt query k) ∧ result = keepAt keep query := by
  obtain ⟨name, found, cases⟩ := stripChars_ok answer
  simp only [deletedAt_iff found]
  rcases cases with ⟨unqualified, rfl⟩ | ⟨nonempty, qualified, stripped⟩
  · refine ⟨fun _ => true, ?_, ?_⟩
    · intro k
      refine iff_of_true rfl ?_
      intro gone
      exact absurd unqualified (not_or.mpr ⟨gone.1, not_not_intro gone.2.1⟩)
    · simp [keepAt]
  · have word := isWordChar_of_findTableName? found
    refine ⟨fun k => !decide (InQualifier (lastPart name) none query k), ?_,
      stripped.eq_withoutQualifiers word⟩
    intro k
    simp [nonempty, qualified]

end Positions

section Outcomes

/-- An outcome in lower case, and with it the query that an error quotes. -/
def lowered : Except StripError String → Except StripError String
  | .ok result => .ok (Text.lower result)
  | .error (.tableNotFound query) => .error (.tableNotFound (Text.lower query))
  | .error .insideCharacter => .error .insideCharacter

/-- Two outcomes of one kind whose texts differ in case alone. -/
inductive Alike : Except StripError String → Except StripError String → Prop
  | answered {result result'} :
      Spells result.toList result'.toList → Alike (.ok result) (.ok result')
  | tableNotFound {query query'} : Spells query.toList query'.toList →
      Alike (.error (.tableNotFound query)) (.error (.tableNotFound query'))
  | insideCharacter : Alike (.error .insideCharacter) (.error .insideCharacter)

theorem lower_eq_iff {text text' : String} :
    Text.lower text = Text.lower text' ↔ Spells text.toList text'.toList := by
  rw [← String.toList_inj, Text.toList_lower, Text.toList_lower, Spells, eq_comm]

theorem alike_of_lowered {one other : Except StripError String}
    (same : lowered one = lowered other) : Alike one other := by
  cases one with
  | ok result =>
      cases other with
      | ok result' => exact .answered (lower_eq_iff.mp (Except.ok.inj same))
      | error e => cases e <;> simp [lowered] at same
  | error e =>
      cases other with
      | ok result' => cases e <;> simp [lowered] at same
      | error e' =>
          cases e with
          | tableNotFound query =>
              cases e' with
              | tableNotFound query' =>
                  have quoted := StripError.tableNotFound.inj (Except.error.inj same)
                  exact .tableNotFound (lower_eq_iff.mp quoted)
              | insideCharacter => simp [lowered] at same
          | insideCharacter =>
              cases e' with
              | tableNotFound query' => simp [lowered] at same
              | insideCharacter => exact .insideCharacter

theorem stripChars_lower {query name : List Char} (found : findTableName? query = some name) :
    stripChars (query.map Char.toLower) = List.map Char.toLower <$> stripChars query := by
  rw [stripChars, stripChars, findTableName?_lower, found]
  simp only [Option.map_some, lastPart_lower, List.isEmpty_map]
  split
  · rfl
  · rw [qualifiedInClause_lower]
    cases qualifiedInClause (lastPart name) query with
    | error e => rfl
    | ok qualified =>
        cases qualified with
        | false => rfl
        | true => exact stripAll_lower rfl

theorem strip_lower (query : String) : strip (Text.lower query) = lowered (strip query) := by
  cases found : findTableName? query.toList with
  | none =>
      have found' : findTableName? (Text.lower query).toList = none := by
        rw [Text.toList_lower, findTableName?_lower, found, Option.map_none]
      rw [strip_eq_tableNotFound_iff.mpr ⟨found, rfl⟩, strip_eq_tableNotFound_iff.mpr ⟨found', rfl⟩]
      rfl
  | some name =>
      rw [strip, strip, Text.toList_lower, stripChars_lower found]
      cases answer : stripChars query.toList with
      | ok result =>
          change Except.ok (String.ofList (result.map Char.toLower)) =
            Except.ok (Text.lower (String.ofList result))
          rw [Text.lower, String.toList_ofList]
      | error e =>
          rcases stripChars_error answer with ⟨missed, -⟩ | ⟨rfl, -⟩
          · rw [found] at missed
            simp at missed
          · rfl

end Outcomes

/-- A query in another case has the same qualifiers at the same places, and the same comes of it. -/
theorem strip_recased {query query' : String} (recased : Spells query.toList query'.toList) :
    Alike (strip query) (strip query') ∧
      (∀ k, DeletedAt query.toList k ↔ DeletedAt query'.toList k) ∧
      (∀ result result', strip query = .ok result → strip query' = .ok result' →
        ∃ keep : ℕ → Bool, (∀ k, keep k = true ↔ ¬DeletedAt query.toList k) ∧
          result.toList = keepAt keep query.toList ∧ result'.toList = keepAt keep query'.toList) ∧
      strip (Text.lower query) = lowered (strip query) := by
  have deleted : ∀ k, DeletedAt query.toList k ↔ DeletedAt query'.toList k := by
    intro k
    rw [← deletedAt_lower, ← recased, deletedAt_lower]
  refine ⟨?_, deleted, ?_, strip_lower query⟩
  · apply alike_of_lowered
    rw [← strip_lower, ← strip_lower, lower_eq_iff.mpr recased]
  · intro result result' answer answer'
    obtain ⟨keep, positions, rest⟩ := exists_keepAt_of_stripChars (strip_eq_ok_iff.mp answer)
    obtain ⟨keep', positions', rest'⟩ := exists_keepAt_of_stripChars (strip_eq_ok_iff.mp answer')
    have same : ∀ k, keep' k = keep k := by
      intro k
      rw [Bool.eq_iff_iff, positions, positions', deleted]
    refine ⟨keep, positions, rest, ?_⟩
    rw [rest', keepAt_congr same]

/-- `chained` with other letters in upper case. -/
def shouted : String := "SELECT T.a FROM s.T.t WHERE t.T.ID = 1"

theorem strip_recased_shouted :
    Spells chained.toList shouted.toList ∧ strip chained = .ok "select a from s.t where id = 1" ∧
      strip shouted = .ok "SELECT a FROM s.t WHERE ID = 1" ∧
      Alike (strip chained) (strip shouted) ∧
      ∃ keep, "select a from s.t where id = 1".toList = keepAt keep chained.toList ∧
        "SELECT a FROM s.t WHERE ID = 1".toList = keepAt keep shouted.toList := by
  have recased : Spells chained.toList shouted.toList := by decide +kernel
  have answer : strip shouted = .ok "SELECT a FROM s.t WHERE ID = 1" :=
    Fallible.toOption_eq_some_iff.mp (by decide +kernel)
  obtain ⟨alike, -, positions, -⟩ := strip_recased recased
  obtain ⟨keep, -, rest, rest'⟩ := positions _ _ strip_chained answer
  exact ⟨recased, strip_chained, answer, alike, keep, rest, rest'⟩

end CqlStatements.Qualifier
