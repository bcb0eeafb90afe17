import CqlStatements.Proofs.Quotes.Statements

/-!
# What a bound statement shows between its quotes

A fenced descriptor has its markers where its values are and its quotes nowhere. Its bound statement is
the text of its spans, so the strings of the bound statement are those of the descriptor in printing order.
Two fenced descriptors that are the same up to their strings are bound to the same text around them.
-/
namespace CqlStatements.Descriptor

open CqlStatements.Span

variable {d d' : Descriptor} {s s' : Statement}

section Spans

/-- The spans of the written statement. -/
def spans (d : Descriptor) : List Span :=
  match d.operation with
  | .select =>
      .bare ("select " ++ (if d.projection.isEmpty then "*" else ", ".intercalate d.projection) ++
          " from " ++ Text.trim d.table) ::
        clauseSpans d.whereFragment d.whereBindings ++ [.bare (clause d.trailing)]
  | .insert => batchSpans (d.rows.map d.rowSpans)
  | .update =>
      .bare ("update " ++ Text.trim d.table ++ " set ") ::
        join ", " d.assignedSpans ++ clauseSpans d.whereFragment d.whereBindings
  | .delete =>
      .bare ("delete" ++ clause (", ".intercalate d.deleteColumns) ++ " from " ++
          Text.trim d.table) ::
        clauseSpans d.whereFragment d.whereBindings
  | .createIndex =>
      [.bare ("create index if not exists on " ++ Text.trim d.table ++ "(" ++
        ", ".intercalate d.indexColumns ++ ")")]

/-- The written statement prints its scalars, and no quotes but those around its strings. -/
theorem renders_spans (free : ∀ text ∈ d.callerTexts, QuoteFree text)
    (covered : d.operation = .select ∨ d.operation = .update ∨ d.operation = .delete →
      countMarkers d.whereFragment = d.whereBindings.length) :
    Renders d.spans d.written d.printedScalars := by
  have comma : QuoteFree ", " := by decide
  have source : QuoteFree " from " := by decide
  cases operation : d.operation with
  | select =>
      simp only [spans, written, printedScalars, operation]
      simp only [callerTexts, operation, List.cons_append, List.forall_mem_cons,
        List.forall_mem_append] at free
      obtain ⟨table, projection, fragment, trailing, -⟩ := free
      have word : QuoteFree "select " := by decide
      have columns : QuoteFree
          (if d.projection.isEmpty then "*" else ", ".intercalate d.projection) := by
        split
        · decide
        · exact comma.intercalate projection
      have front := ((word.append columns).append source).append (quoteFree_trim table)
      have condition := renders_clauseSpans fragment (covered (.inl operation))
      exact (condition.bare_cons front).concat_bare (quoteFree_clause trailing)
  | insert =>
      simp only [spans, written, printedScalars, operation]
      exact renders_batchSpans (rendersEach_map fun row _ => renders_rowSpans operation free row)
  | update =>
      simp only [spans, written, printedScalars, operation]
      simp only [callerTexts, operation, List.cons_append, List.forall_mem_cons,
        List.forall_mem_append, List.forall_mem_map] at free
      obtain ⟨table, ⟨columns, collections⟩, fragment, -⟩ := free
      have word : QuoteFree "update " := by decide
      have set : QuoteFree " set " := by decide
      have front := (word.append (quoteFree_trim table)).append set
      have body := (rendersEach_assignedSpans columns collections).join comma
      exact (body.bare_cons front).append
        (renders_clauseSpans fragment (covered (.inr (.inl operation))))
  | delete =>
      simp only [spans, written, printedScalars, operation]
      simp only [callerTexts, operation, List.cons_append, List.forall_mem_cons,
        List.forall_mem_append] at free
      obtain ⟨table, columns, fragment, -⟩ := free
      have word : QuoteFree "delete" := by decide
      have front := ((word.append (quoteFree_clause (comma.intercalate columns))).append
        source).append (quoteFree_trim table)
      exact (renders_clauseSpans fragment (covered (.inr (.inr operation)))).bare_cons front
  | createIndex =>
      simp only [spans, written, printedScalars, operation]
      simp only [callerTexts, operation, List.forall_mem_cons] at free
      have word : QuoteFree "create index if not exists on " := by decide
      have open' : QuoteFree "(" := by decide
      have close : QuoteFree ")" := by decide
      exact renders_bare ((((word.append (quoteFree_trim free.1)).append open').append
        (comma.intercalate free.2)).append close)

/-- The spans without their strings are the spans without the strings of the descriptor. -/
theorem map_emptied_spans (d : Descriptor) : d.spans.map Span.emptied = d.emptied.spans := by
  have same : d.emptied.operation = d.operation := rfl
  cases operation : d.operation with
  | select =>
      simp only [spans, operation, same, List.map_append, List.map_cons, List.map_nil,
        emptied_bare, map_emptied_clauseSpans]
      rfl
  | insert =>
      simp only [spans, operation, same, map_emptied_batchSpans, rows_emptied, List.map_map]
      simp only [Function.comp_def, map_emptied_rowSpans]
  | update =>
      simp only [spans, operation, same, List.map_append, List.map_cons, emptied_bare,
        map_emptied_join, map_emptied_assignedSpans, map_emptied_clauseSpans]
      rfl
  | delete =>
      simp only [spans, operation, same, List.map_cons, emptied_bare, map_emptied_clauseSpans]
      rfl
  | createIndex =>
      simp only [spans, operation, same, List.map_cons, List.map_nil, emptied_bare]
      rfl

end Spans

section Fences

/-- A descriptor that compiles, with a marker for each value and no others, and without quotes in the
caller's texts and in the strings. -/
structure Fenced (d : Descriptor) (s : Statement) : Prop where
  compiled : d.compile = .ok s
  covered : d.operation = .select ∨ d.operation = .update ∨ d.operation = .delete →
    countMarkers d.whereFragment = d.whereBindings.length
  unmarked : ∀ text ∈ d.printedTexts, marker ∉ text.toList
  texts : ∀ text ∈ d.callerTexts, quote ∉ text.toList
  strings : ∀ text ∈ d.printedStrings, quote ∉ text.toList

theorem Fenced.bound (fenced : Fenced d s) : s.bound = .ok d.written := by
  obtain ⟨t, described⟩ := exists_template fenced.compiled fenced.covered
  rw [described.bound, if_pos (strayMarkers_eq_zero_iff.mpr fenced.unmarked)]

/-- Cut at its quotes, the bound statement falls into the segments of its spans. -/
theorem Fenced.splitChars_written (fenced : Fenced d s) :
    Text.splitChars quote d.written.toList = segments d.spans := by
  have renders := renders_spans fenced.texts fenced.covered
  rw [← renders.text_eq]
  apply splitChars_textOf renders.unquoted
  rw [renders.strings_eq]
  exact fenced.strings

/-- The quotes of a bound statement are those around its strings: the strings lie at the odd places in
printing order, and what lies at the even places does not depend on what they hold. -/
theorem splitChars_bound (fenced : Fenced d s) :
    ∃ text, s.bound = .ok text ∧
      (Text.splitChars quote text.toList).length = 2 * d.printedStrings.length + 1 ∧
      (∀ i, (Text.splitChars quote text.toList)[2 * i + 1]? =
        d.printedStrings[i]?.map String.toList) ∧
      ∀ d' s', Fenced d' s' → d'.emptied = d.emptied → ∃ text', s'.bound = .ok text' ∧
        ∀ i, (Text.splitChars quote text'.toList)[2 * i]? =
          (Text.splitChars quote text.toList)[2 * i]? := by
  have strings := (renders_spans fenced.texts fenced.covered).strings_eq
  refine ⟨d.written, fenced.bound, ?_, ?_, ?_⟩
  · rw [fenced.splitChars_written, length_segments, strings]
    rfl
  · intro i
    rw [fenced.splitChars_written, getElem?_segments_odd, strings]
    rfl
  · intro d' s' fenced' same
    refine ⟨d'.written, fenced'.bound, fun i => ?_⟩
    rw [fenced.splitChars_written, fenced'.splitChars_written, getElem?_segments_even,
      getElem?_segments_even d.spans, map_emptied_spans, map_emptied_spans, same]

/-- A change of a row whose strings look like statement text, keys that are written and keys that are
not, and a string on each side of the where clause. -/
def labelling (label key word name : String) : Descriptor :=
  { operation := .update, table := "t", columns := [⟨"label", .string label⟩, ⟨"n", .int 1⟩]
    updateCollections :=
      [⟨.map, "m", .entries [(.string key, .string word)], some .append⟩,
        ⟨.map, "p", .entries [(.int 2, .string word), (.string key, .null)], none⟩]
    whereFragment := "where id = ? and name = ?", whereBindings := [.int 7, .string name] }

def labellingStatement (label key word name : String) : Statement :=
  ⟨.update,
    "update t set label = ?, n = ?, m=m+\x7b" ++ quote.toString ++ key ++ quote.toString ++ ":" ++
      quote.toString ++ word ++ quote.toString ++ "\x7d, p=\x7b" ++ quote.toString ++ word ++
      quote.toString ++ ", null\x7d where id = ? and name = ?",
    [.string label, .int 1, .int 7, .string name]⟩

theorem splitChars_bound_labelling :
    let d := labelling "?, x = [?]" "a:b" "\x7d where" "?"
    let s := labellingStatement "?, x = [?]" "a:b" "\x7d where" "?"
    Fenced d s ∧ ∃ text, s.bound = .ok text ∧
      (Text.splitChars quote text.toList).length = 2 * d.printedStrings.length + 1 ∧
      (∀ i, (Text.splitChars quote text.toList)[2 * i + 1]? =
        d.printedStrings[i]?.map String.toList) ∧
      ∀ d' s', Fenced d' s' → d'.emptied = d.emptied → ∃ text', s'.bound = .ok text' ∧
        ∀ i, (Text.splitChars quote text'.toList)[2 * i]? =
          (Text.splitChars quote text.toList)[2 * i]? := by
  intro d s
  have fenced : Fenced d s := ⟨by decide, fun _ => by decide, by decide, by decide, by decide⟩
  exact ⟨fenced, splitChars_bound fenced⟩

example : (labelling "l" "k" "w" "n").printedStrings = ["l", "k", "w", "w", "n"] := rfl

end Fences

end CqlStatements.Descriptor
