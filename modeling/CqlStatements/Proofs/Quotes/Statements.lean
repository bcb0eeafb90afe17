import CqlStatements.Proofs.BoundText
import CqlStatements.Proofs.Quotes.Literals

/-!
# Strings stay between their quotes

Nothing is escaped, so a string is only as safe as what it holds. Where neither the strings nor the
caller's own texts hold a quote, the quotes of a bound statement are those around its strings: cut there,
the statement shows its strings in printing order, and what is left does not depend on what they hold.

The written statement of each operation is taken apart into spans, put together as its text is. Emptying
the strings of the spans is the same as emptying those of the descriptor.
-/
namespace CqlStatements

open CqlStatements.Span

def ColumnValue.emptied (c : ColumnValue) : ColumnValue := { c with value := c.value.emptied }

namespace Descriptor

theorem quoteFree_trim {text : String} (free : QuoteFree text) : QuoteFree (Text.trim text) := by
  rw [QuoteFree, Text.toList_trim, Text.trimChars, List.mem_reverse]
  intro kept
  have reversed := (List.dropWhile_suffix _).subset kept
  rw [List.mem_reverse] at reversed
  exact free ((List.dropWhile_suffix _).subset reversed)

theorem quoteFree_clause {text : String} (free : QuoteFree text) : QuoteFree (clause text) := by
  have blank : QuoteFree " " := by decide
  rw [clause_eq]
  split
  · decide
  · exact blank.append (quoteFree_trim free)

section Printed

/-- The value that a row gives to a column. -/
def cell? (row : Row) (column : String) : Option Scalar :=
  (row.find? fun c => c.column == column).map ColumnValue.value

/-- The scalars that the bound statement prints, in order. -/
def printedScalars (d : Descriptor) : List Scalar :=
  match d.operation with
  | .select | .delete => d.whereBindings
  | .insert =>
      d.rows.flatMap fun row =>
        d.scalarNames.filterMap (cell? row) ++ d.insertCollections.flatMap Mutation.printedScalars
  | .update =>
      d.columns.map ColumnValue.value ++ d.updateCollections.flatMap Mutation.printedScalars ++
        d.whereBindings
  | .createIndex => []

def printedStrings (d : Descriptor) : List String := d.printedScalars.filterMap Scalar.string?

/-- The caller's own texts that a statement prints: names, fragment and trailing text. -/
def callerTexts (d : Descriptor) : List String :=
  match d.operation with
  | .select => d.table :: d.projection ++ [d.whereFragment, d.trailing]
  | .insert => d.table :: d.insertNames ++ [d.trailing]
  | .update =>
      d.table :: d.columns.map ColumnValue.column ++ d.updateCollections.map Mutation.column ++
        [d.whereFragment]
  | .delete => d.table :: d.deleteColumns ++ [d.whereFragment]
  | .createIndex => d.table :: d.indexColumns

/-- The descriptor without what its strings hold. -/
def emptied (d : Descriptor) : Descriptor :=
  { d with
    whereBindings := d.whereBindings.map Scalar.emptied
    columns := d.columns.map ColumnValue.emptied
    batchRows := d.batchRows.map (List.map ColumnValue.emptied)
    insertCollections := d.insertCollections.map Mutation.emptied
    updateCollections := d.updateCollections.map Mutation.emptied }

end Printed

section Clauses

/-- The pieces of a fragment with the span of one value between each two of them. -/
def interleaveSpans : List (List Char) → List Scalar → List Span
  | [], _ => []
  | [piece], _ => [.bare (String.ofList piece)]
  | piece :: _ :: _, [] => [.bare (String.ofList piece)]
  | piece :: next :: pieces, v :: values =>
      .bare (String.ofList piece) :: v.span :: interleaveSpans (next :: pieces) values

def clauseSpans (fragment : String) (bindings : List Scalar) : List Span :=
  if Text.trim fragment = "" then []
  else .bare " " :: interleaveSpans (Text.splitChars marker (Text.trim fragment).toList) bindings

theorem mem_of_mem_splitChars {separator c : Char} {cs piece : List Char}
    (mem : piece ∈ Text.splitChars separator cs) (inside : c ∈ piece) : c ∈ cs := by
  induction cs generalizing piece with
  | nil =>
      obtain rfl := List.mem_singleton.mp mem
      exact inside
  | cons first cs ih =>
      rw [Text.splitChars] at mem
      split at mem
      · rcases List.mem_cons.mp mem with rfl | mem
        · simp at inside
        · exact List.mem_cons_of_mem first (ih mem inside)
      · cases split : Text.splitChars separator cs with
        | nil => simp [split] at mem
        | cons piece' pieces =>
            rw [split, List.modifyHead_cons] at mem
            rcases List.mem_cons.mp mem with rfl | mem
            · rcases List.mem_cons.mp inside with rfl | inside
              · exact List.mem_cons_self
              · refine List.mem_cons_of_mem first (ih ?_ inside)
                rw [split]
                exact List.mem_cons_self
            · refine List.mem_cons_of_mem first (ih ?_ inside)
              rw [split]
              exact List.mem_cons_of_mem piece' mem

theorem renders_interleaveSpans {pieces : List (List Char)} {values : List Scalar}
    (free : ∀ piece ∈ pieces, quote ∉ piece) (enough : pieces.length = values.length + 1) :
    Renders (interleaveSpans pieces values) (String.ofList (interleave pieces values)) values := by
  fun_induction interleaveSpans pieces values with
  | case1 => simp at enough
  | case2 piece values =>
      obtain rfl : values = [] := by simpa using enough
      exact renders_bare (by simpa [QuoteFree] using free)
  | case3 => simp at enough
  | case4 piece next pieces v values ih =>
      rw [List.forall_mem_cons] at free
      have own : QuoteFree (String.ofList piece) := by
        rw [QuoteFree, String.toList_ofList]
        exact free.1
      have others := ih free.2 (by simpa using enough)
      have whole := (others.scalar_cons v).bare_cons own
      simp only [interleave, String.ofList_append, String.append_assoc]
      exact whole

theorem renders_clauseSpans {fragment : String} {bindings : List Scalar}
    (free : QuoteFree fragment) (covered : countMarkers fragment = bindings.length) :
    Renders (clauseSpans fragment bindings) (writtenClause fragment bindings) bindings := by
  rw [← countMarkers_trim] at covered
  unfold clauseSpans writtenClause
  by_cases blank : Text.trim fragment = ""
  · rw [if_pos blank, if_pos blank]
    rw [blank] at covered
    obtain rfl : bindings = [] := List.eq_nil_of_length_eq_zero covered.symm
    exact renders_nil
  · rw [if_neg blank, if_neg blank]
    have space : QuoteFree " " := by decide
    have free' : ∀ piece ∈ Text.splitChars marker (Text.trim fragment).toList, quote ∉ piece :=
      fun piece mem inside => quoteFree_trim free (mem_of_mem_splitChars mem inside)
    have enough : (Text.splitChars marker (Text.trim fragment).toList).length =
        bindings.length + 1 := by
      rw [Text.length_splitChars, ← covered, countMarkers]
    exact (renders_interleaveSpans free' enough).bare_cons space

theorem map_emptied_interleaveSpans (pieces : List (List Char)) (values : List Scalar) :
    (interleaveSpans pieces values).map Span.emptied =
      interleaveSpans pieces (values.map Scalar.emptied) := by
  fun_induction interleaveSpans pieces values with
  | case1 => rfl
  | case2 => rfl
  | case3 => rfl
  | case4 piece next pieces v values ih =>
      simp only [List.map_cons, ih, emptied_bare, Scalar.emptied_span, interleaveSpans]

theorem map_emptied_clauseSpans (fragment : String) (bindings : List Scalar) :
    (clauseSpans fragment bindings).map Span.emptied =
      clauseSpans fragment (bindings.map Scalar.emptied) := by
  unfold clauseSpans
  split
  · rfl
  · rw [List.map_cons, map_emptied_interleaveSpans, emptied_bare]

end Clauses

section Rows

variable {d : Descriptor}

def cellSpans (row : Row) (column : String) : List Span :=
  ((cell? row column).map Scalar.span).toList

theorem renders_cellSpans (row : Row) (column : String) :
    Renders (cellSpans row column) (writtenCell row column) (cell? row column).toList := by
  unfold cellSpans writtenCell cell?
  cases row.find? fun c => c.column == column with
  | none => exact renders_nil
  | some c => exact renders_scalar c.value

theorem cell?_emptied (row : Row) (column : String) :
    cell? (row.map ColumnValue.emptied) column = (cell? row column).map Scalar.emptied := by
  unfold cell?
  rw [List.find?_map, Option.map_map, Option.map_map]
  rfl

theorem map_emptied_cellSpans (row : Row) (column : String) :
    (cellSpans row column).map Span.emptied = cellSpans (row.map ColumnValue.emptied) column := by
  unfold cellSpans
  rw [cell?_emptied]
  cases cell? row column with
  | none => rfl
  | some x => exact congrArg (fun span => [span]) x.emptied_span

/-- The cells of a row and the collections of an insert. -/
def valueSpans (d : Descriptor) (row : Row) : List (List Span) :=
  d.scalarNames.map (cellSpans row) ++ d.insertCollections.map Mutation.spans

def rowSpans (d : Descriptor) (row : Row) : List Span :=
  .bare ("insert into " ++ Text.trim d.table ++ " (" ++ ", ".intercalate d.insertNames ++
      ") values (") ::
    join ", " (d.valueSpans row) ++ [.bare ")"] ++ [.bare (clause d.trailing)]

def rowScalars (d : Descriptor) (row : Row) : List Scalar :=
  d.scalarNames.filterMap (cell? row) ++ d.insertCollections.flatMap Mutation.printedScalars

theorem rendersEach_valueSpans (d : Descriptor) (row : Row) :
    RendersEach (d.valueSpans row)
      (d.scalarNames.map (writtenCell row) ++ d.insertCollections.map Mutation.literal)
      (d.rowScalars row) := by
  rw [rowScalars, List.filterMap_eq_flatMap_toList]
  exact (rendersEach_map fun column _ => renders_cellSpans row column).append
    (rendersEach_map fun m _ => m.renders_spans)

theorem renders_rowSpans (operation : d.operation = .insert)
    (free : ∀ text ∈ d.callerTexts, QuoteFree text) (row : Row) :
    Renders (d.rowSpans row) (d.writtenRow row) (d.rowScalars row) := by
  simp only [callerTexts, operation, List.cons_append, List.forall_mem_cons,
    List.forall_mem_append] at free
  obtain ⟨table, names, trailing, -⟩ := free
  have word : QuoteFree "insert into " := by decide
  have parenthesis : QuoteFree " (" := by decide
  have values : QuoteFree ") values (" := by decide
  have close : QuoteFree ")" := by decide
  have comma : QuoteFree ", " := by decide
  have front := (((word.append (quoteFree_trim table)).append parenthesis).append
    (comma.intercalate names)).append values
  have body := (d.rendersEach_valueSpans row).join comma
  exact ((body.bare_cons front).concat_bare close).concat_bare (quoteFree_clause trailing)

theorem rows_emptied (d : Descriptor) :
    d.emptied.rows = d.rows.map (List.map ColumnValue.emptied) := rfl

theorem scalarNames_emptied (d : Descriptor) : d.emptied.scalarNames = d.scalarNames := by
  simp only [scalarNames, emptied, List.map_map]
  rfl

theorem insertNames_emptied (d : Descriptor) : d.emptied.insertNames = d.insertNames := by
  rw [insertNames, insertNames, scalarNames_emptied, emptied, List.map_map]
  rfl

theorem map_emptied_rowSpans (d : Descriptor) (row : Row) :
    (d.rowSpans row).map Span.emptied = d.emptied.rowSpans (row.map ColumnValue.emptied) := by
  have values : (d.valueSpans row).map (List.map Span.emptied) =
      d.emptied.valueSpans (row.map ColumnValue.emptied) := by
    simp only [valueSpans, List.map_append, List.map_map, scalarNames_emptied]
    simp only [Function.comp_def, map_emptied_cellSpans, Mutation.map_emptied_spans, emptied,
      List.map_map]
  simp only [rowSpans, List.map_append, List.map_cons, List.map_nil, emptied_bare,
    map_emptied_join, values, insertNames_emptied]
  rfl

def batchSpans : List (List Span) → List Span
  | [spans] => spans
  | parts => .bare "begin batch " :: join "; " parts ++ [.bare "; apply batch"]

theorem renders_batchSpans {parts : List (List Span)} {texts : List String} {xs : List Scalar}
    (each : RendersEach parts texts xs) : Renders (batchSpans parts) (batchText texts) xs := by
  have front : QuoteFree "begin batch " := by decide
  have between : QuoteFree "; " := by decide
  have back : QuoteFree "; apply batch" := by decide
  have whole := ((each.join between).bare_cons front).concat_bare back
  cases each with
  | nil => exact whole
  | cons first others =>
      cases others with
      | nil =>
          rw [List.append_nil]
          exact first
      | cons next others => exact whole

theorem map_emptied_batchSpans (parts : List (List Span)) :
    (batchSpans parts).map Span.emptied = batchSpans (parts.map (List.map Span.emptied)) := by
  match parts with
  | [] => rfl
  | [spans] => rfl
  | spans :: next :: parts =>
      simp only [batchSpans, List.map_append, List.map_cons, List.map_nil, emptied_bare,
        map_emptied_join]

end Rows

section Assignments

def assignmentSpans (c : ColumnValue) : List Span := [.bare (c.column ++ " = "), c.value.span]

/-- What an assignment of a collection writes in front of the literal. -/
def changeText (m : Mutation) : String :=
  match m.change with
  | none => m.column ++ "="
  | some change => m.column ++ "=" ++ m.column ++ change.symbol

def changeSpans (m : Mutation) : List Span := .bare (changeText m) :: m.spans

theorem renders_assignmentSpans {c : ColumnValue} (free : QuoteFree c.column) :
    Renders (assignmentSpans c) (writtenAssignment c) [c.value] := by
  have sign : QuoteFree " = " := by decide
  exact (renders_scalar c.value).bare_cons (free.append sign)

theorem renders_changeSpans {m : Mutation} (free : QuoteFree m.column) :
    Renders (changeSpans m) (collectionAssignment m) m.printedScalars := by
  have sign : QuoteFree "=" := by decide
  have symbol (change : Collection.Change) : QuoteFree change.symbol := by cases change <;> decide
  have front : QuoteFree (changeText m) := by
    unfold changeText
    split
    · exact free.append sign
    · exact ((free.append sign).append free).append (symbol _)
  have text : collectionAssignment m = changeText m ++ m.literal := by
    unfold collectionAssignment changeText
    cases m.change <;> rfl
  rw [text]
  exact m.renders_spans.bare_cons front

theorem map_emptied_changeSpans (m : Mutation) :
    (changeSpans m).map Span.emptied = changeSpans m.emptied := by
  rw [changeSpans, List.map_cons, m.map_emptied_spans]
  rfl

def assignedSpans (d : Descriptor) : List (List Span) :=
  d.columns.map assignmentSpans ++ d.updateCollections.map changeSpans

theorem rendersEach_assignedSpans {d : Descriptor}
    (columns : ∀ c ∈ d.columns, QuoteFree c.column)
    (collections : ∀ m ∈ d.updateCollections, QuoteFree m.column) :
    RendersEach d.assignedSpans
      (d.columns.map writtenAssignment ++ d.updateCollections.map collectionAssignment)
      (d.columns.map ColumnValue.value ++ d.updateCollections.flatMap Mutation.printedScalars) := by
  have scalars := rendersEach_map fun c member => renders_assignmentSpans (columns c member)
  have values : d.columns.flatMap (fun c => [c.value]) = d.columns.map ColumnValue.value :=
    List.flatMap_pure_eq_map ColumnValue.value d.columns
  rw [values] at scalars
  exact scalars.append (rendersEach_map fun m member => renders_changeSpans (collections m member))

theorem map_emptied_assignedSpans (d : Descriptor) :
    d.assignedSpans.map (List.map Span.emptied) = d.emptied.assignedSpans := by
  have scalar (c : ColumnValue) :
      (assignmentSpans c).map Span.emptied = assignmentSpans c.emptied := by
    simp only [assignmentSpans, List.map_cons, List.map_nil, emptied_bare, Scalar.emptied_span]
    rfl
  simp only [assignedSpans, List.map_append, List.map_map, emptied]
  simp only [Function.comp_def, scalar, map_emptied_changeSpans]

end Assignments

end Descriptor
end CqlStatements
