import CqlStatements.Proofs.Binding
import CqlStatements.Proofs.InsertRows

/-!
# Statements written with their values in place

Each operation is written here a second time, directly, with the literal of every value at the place of
its column, and beside it stand the caller's texts that may bring in markers without a value. A compiled
statement is described by a template whose surplus markers are just these and which without them is
filled to the written statement.

This module describes the operations with one row. The rows of an insert follow in a module of their own.
-/
namespace CqlStatements.Descriptor

section Written

/-- A clause with its bindings in the places of its markers. -/
def writtenClause (fragment : String) (bindings : List Scalar) : String :=
  if Text.trim fragment = "" then ""
  else " " ++ String.ofList
    (interleave (Text.splitChars marker (Text.trim fragment).toList) bindings)

def writtenAssignment (c : ColumnValue) : String := c.column ++ " = " ++ c.value.literal

/-- The literal of the value that a row gives to a column. -/
def writtenCell (row : Row) (column : String) : String :=
  match row.find? fun c => c.column == column with
  | some c => c.value.literal
  | none => ""

def writtenRow (d : Descriptor) (row : Row) : String :=
  "insert into " ++ Text.trim d.table ++ " (" ++ ", ".intercalate d.insertNames ++ ") values (" ++
    ", ".intercalate (d.scalarNames.map (writtenCell row) ++
      d.insertCollections.map Mutation.literal) ++ ")" ++ clause d.trailing

/-- The statement of a descriptor with its values in place. -/
def written (d : Descriptor) : String :=
  match d.operation with
  | .select =>
      "select " ++ (if d.projection.isEmpty then "*" else ", ".intercalate d.projection) ++
        " from " ++ Text.trim d.table ++ writtenClause d.whereFragment d.whereBindings ++
        clause d.trailing
  | .insert => batchText (d.rows.map d.writtenRow)
  | .update =>
      "update " ++ Text.trim d.table ++ " set " ++
        ", ".intercalate (d.columns.map writtenAssignment ++
          d.updateCollections.map collectionAssignment) ++
        writtenClause d.whereFragment d.whereBindings
  | .delete =>
      "delete" ++ clause (", ".intercalate d.deleteColumns) ++ " from " ++ Text.trim d.table ++
        writtenClause d.whereFragment d.whereBindings
  | .createIndex =>
      "create index if not exists on " ++ Text.trim d.table ++ "(" ++
        ", ".intercalate d.indexColumns ++ ")"

/-- The texts of an assignment; a change names its column twice. -/
def mutationTexts (m : Mutation) : List String :=
  match m.change with
  | none => [m.column, m.literal]
  | some _ => [m.column, m.column, m.literal]

/-- The caller's texts that a statement prints beside the where fragment, each as often as it is
printed. -/
def printedTexts (d : Descriptor) : List String :=
  match d.operation with
  | .select => d.table :: d.projection ++ [d.trailing]
  | .insert =>
      (List.replicate d.rows.length (d.table :: d.insertNames ++
        d.insertCollections.map Mutation.literal ++ [d.trailing])).flatten
  | .update =>
      d.table :: d.columns.map ColumnValue.column ++ d.updateCollections.flatMap mutationTexts
  | .delete => d.deleteColumns ++ [d.table]
  | .createIndex => d.table :: d.indexColumns

/-- The markers in texts that have no values. -/
def strayMarkers (d : Descriptor) : ℕ := (d.printedTexts.map countMarkers).sum

theorem strayMarkers_eq_zero_iff {d : Descriptor} :
    d.strayMarkers = 0 ↔ ∀ text ∈ d.printedTexts, marker ∉ text.toList := by
  simp only [strayMarkers, List.sum_eq_zero_iff_forall_eq_nat, List.mem_map, forall_exists_index,
    and_imp, forall_apply_eq_imp_iff₂, countMarkers_eq_zero_iff]

end Written

/-- The words of the statements themselves. -/
theorem countMarkers_words : ∀ word ∈ ["select ", "*", " from ", " ", ", ", "update ", " set ",
    " = ", "=", "+", "-", "delete", "insert into ", " (", ") values (", "(", ")", "begin batch ",
    "; ", "; apply batch", "create index if not exists on "], countMarkers word = 0 := by decide

theorem countMarkers_of_sum {texts : List String} (h : (texts.map countMarkers).sum = 0)
    {text : String} (member : text ∈ texts) : countMarkers text = 0 :=
  List.sum_eq_zero_iff_forall_eq_nat.mp h _ (List.mem_map_of_mem member)

@[simp] theorem countMarkers_clause (text : String) :
    countMarkers (clause text) = countMarkers text := by
  rw [clause_eq, ← countMarkers_trim text]
  split
  · rename_i blank
    rw [blank]
  · rw [countMarkers_append, countMarkers_words " " (by decide), Nat.zero_add]

section Parts

theorem countMarkers_commaSeparated (items : List String) :
    countMarkers (", ".intercalate items) = (items.map countMarkers).sum :=
  countMarkers_intercalate (by decide) items

/-- A where clause and its bindings. -/
def whereTemplate (d : Descriptor) : Template := ⟨clause d.whereFragment, d.whereBindings⟩

theorem exact_whereTemplate {d : Descriptor}
    (h : countMarkers d.whereFragment = d.whereBindings.length) : d.whereTemplate.Exact := by
  rw [Template.Exact, whereTemplate, countMarkers_clause, h]

theorem filled_whereTemplate {d : Descriptor}
    (h : countMarkers d.whereFragment = d.whereBindings.length) :
    d.whereTemplate.filled = writtenClause d.whereFragment d.whereBindings := by
  rw [← countMarkers_trim] at h
  unfold writtenClause
  split
  · rename_i blank
    rw [blank] at h
    have none : d.whereBindings = [] := List.eq_nil_of_length_eq_zero h.symm
    rw [whereTemplate, none, clause_eq, if_pos blank]
    rfl
  · rename_i some
    have space : (Template.plain " ").Exact := Template.exact_plain (by decide)
    have cut : d.whereTemplate =
        Template.plain " " ++ ⟨Text.trim d.whereFragment, d.whereBindings⟩ := by
      ext1
      · simp only [whereTemplate, clause_eq, if_neg some, Template.text_append, Template.text_plain]
      · rfl
    rw [cut, Template.filled_append space, Template.filled_plain, Template.filled,
      bindChars_eq_interleave (Nat.le_of_eq h)]

end Parts

/-- What is to be shown of the compiler of an operation: a template of its statement in which only the
stray markers have no values, and which without any is filled as written. -/
structure Describes (t : Template) (d : Descriptor) (s : Statement) : Prop where
  text : s.text = t.text
  parameters : s.parameters = t.values
  surplus : countMarkers t.text = t.values.length + d.strayMarkers
  filled : d.strayMarkers = 0 → t.filled = d.written

section Operations

variable {d : Descriptor} {s : Statement}

theorem describes_select (operation : d.operation = .select) (h : d.compileSelect = .ok s)
    (covered : countMarkers d.whereFragment = d.whereBindings.length) :
    ∃ t, Describes t d s := by
  obtain ⟨_, rfl⟩ := compileSelect_eq_ok_iff.mp h
  have columns : countMarkers (if d.projection.isEmpty then "*" else ", ".intercalate d.projection) =
      (d.projection.map countMarkers).sum := by
    split
    · rename_i none
      rw [List.isEmpty_iff.mp none]
      decide
    · exact countMarkers_commaSeparated d.projection
  have strays : d.strayMarkers =
      countMarkers d.table + (d.projection.map countMarkers).sum + countMarkers d.trailing := by
    simp [strayMarkers, printedTexts, operation, Nat.add_assoc]
  refine ⟨Template.plain ("select " ++
      (if d.projection.isEmpty then "*" else ", ".intercalate d.projection) ++ " from " ++
      Text.trim d.table) ++ d.whereTemplate ++ Template.plain (clause d.trailing), ?_, ?_, ?_, ?_⟩
  · simp only [Template.text_append, Template.text_plain, whereTemplate, commaSeparated]
  · simp only [Template.values_append, Template.values_plain, whereTemplate, List.nil_append,
      List.append_nil]
  · simp (disch := decide) only [Template.text_append, Template.text_plain, whereTemplate,
      Template.values_append, Template.values_plain, List.nil_append, List.append_nil,
      countMarkers_append, countMarkers_clause, countMarkers_trim, countMarkers_words, columns,
      covered, strays]
    omega
  · intro none
    have front : countMarkers ("select " ++
        (if d.projection.isEmpty then "*" else ", ".intercalate d.projection) ++ " from " ++
        Text.trim d.table) = 0 := by
      simp (disch := decide) only [countMarkers_append, countMarkers_trim, countMarkers_words,
        columns]
      omega
    have exact := (Template.exact_plain front).append (exact_whereTemplate covered)
    rw [Template.filled_append exact, Template.filled_append (Template.exact_plain front),
      filled_whereTemplate covered]
    simp only [Template.filled_plain, written, operation]

theorem describes_delete (operation : d.operation = .delete) (h : d.compileDelete = .ok s)
    (covered : countMarkers d.whereFragment = d.whereBindings.length) :
    ∃ t, Describes t d s := by
  obtain ⟨_, rfl⟩ := compileDelete_eq_ok_iff.mp h
  have strays : d.strayMarkers =
      (d.deleteColumns.map countMarkers).sum + countMarkers d.table := by
    simp [strayMarkers, printedTexts, operation]
  refine ⟨Template.plain ("delete" ++ clause (", ".intercalate d.deleteColumns) ++ " from " ++
      Text.trim d.table) ++ d.whereTemplate, ?_, ?_, ?_, ?_⟩
  · simp only [Template.text_append, Template.text_plain, whereTemplate, commaSeparated]
  · simp only [Template.values_append, Template.values_plain, whereTemplate, List.nil_append]
  · simp (disch := decide) only [Template.text_append, Template.text_plain, whereTemplate,
      Template.values_append, Template.values_plain, List.nil_append, countMarkers_append,
      countMarkers_clause, countMarkers_trim, countMarkers_words, countMarkers_commaSeparated,
      covered, strays]
    omega
  · intro none
    have front : countMarkers ("delete" ++ clause (", ".intercalate d.deleteColumns) ++ " from " ++
        Text.trim d.table) = 0 := by
      simp (disch := decide) only [countMarkers_append, countMarkers_clause, countMarkers_trim,
        countMarkers_words, countMarkers_commaSeparated]
      omega
    rw [Template.filled_append (Template.exact_plain front), filled_whereTemplate covered]
    simp only [Template.filled_plain, written, operation]

theorem describes_createIndex (operation : d.operation = .createIndex)
    (h : d.compileCreateIndex = .ok s) : ∃ t, Describes t d s := by
  obtain ⟨_, _, rfl⟩ := compileCreateIndex_eq_ok_iff.mp h
  refine ⟨Template.plain _, rfl, rfl, ?_, ?_⟩
  · simp (disch := decide) only [Template.text_plain, Template.values_plain, countMarkers_append,
      countMarkers_trim, countMarkers_words, commaSeparated, countMarkers_commaSeparated,
      strayMarkers, printedTexts, operation, List.map_cons, List.sum_cons, List.length_nil]
    omega
  · intro _
    simp only [Template.filled_plain, written, operation, commaSeparated]

def assignmentTemplate (c : ColumnValue) : Template :=
  Template.plain (c.column ++ " = ") ++ Template.hole c.value

theorem countMarkers_collectionAssignment (m : Mutation) :
    countMarkers (collectionAssignment m) = ((mutationTexts m).map countMarkers).sum := by
  unfold collectionAssignment mutationTexts
  cases m.change with
  | none =>
      simp (disch := decide) [countMarkers_words]
  | some change =>
      have symbol : countMarkers change.symbol = 0 := by cases change <;> decide
      simp (disch := decide) [countMarkers_words, symbol, Nat.add_assoc]

theorem countMarkers_columnAssignments (columns : Row) :
    ((columns.map columnAssignment).map countMarkers).sum =
      columns.length + ((columns.map ColumnValue.column).map countMarkers).sum := by
  induction columns with
  | nil => rfl
  | cons c columns ih =>
      have own : countMarkers (columnAssignment c) = countMarkers c.column + 1 := by
        simp (disch := decide) only [columnAssignment, countMarkers_append, countMarkers_words]
        rfl
      simp only [List.map_cons, List.sum_cons, List.length_cons, own, ih]
      omega

theorem countMarkers_collectionAssignments (collections : List Mutation) :
    ((collections.map collectionAssignment).map countMarkers).sum =
      ((collections.flatMap mutationTexts).map countMarkers).sum := by
  induction collections with
  | nil => rfl
  | cons m collections ih =>
      simp only [List.map_cons, List.sum_cons, List.flatMap_cons, List.map_append, List.sum_append,
        countMarkers_collectionAssignment, ih]

/-- All assignments of an update; the scalar ones have their values with them. -/
def assignmentsTemplate (d : Descriptor) : Template :=
  Template.join ", " (d.columns.map assignmentTemplate ++
    d.updateCollections.map fun m => Template.plain (collectionAssignment m))

theorem text_assignmentsTemplate (d : Descriptor) :
    d.assignmentsTemplate.text = commaSeparated
      (d.columns.map columnAssignment ++ d.updateCollections.map collectionAssignment) := by
  simp only [assignmentsTemplate, Template.join, List.map_append, List.map_map, commaSeparated]
  rfl

theorem values_assignmentsTemplate (d : Descriptor) :
    d.assignmentsTemplate.values = d.columns.map ColumnValue.value := by
  have scalars : (d.columns.map assignmentTemplate).flatMap Template.values =
      d.columns.map ColumnValue.value := by
    rw [List.flatMap_map]
    exact List.flatMap_pure_eq_map ColumnValue.value d.columns
  have others : (d.updateCollections.map fun m =>
      Template.plain (collectionAssignment m)).flatMap Template.values = [] := by
    simp
  rw [assignmentsTemplate, Template.join, List.flatMap_append, scalars, others, List.append_nil]

section Assignments

variable (columns : ∀ c ∈ d.columns, countMarkers c.column = 0)
variable (collections : ∀ m ∈ d.updateCollections, countMarkers (collectionAssignment m) = 0)

theorem exact_column {c : ColumnValue} (h : countMarkers c.column = 0) :
    (Template.plain (c.column ++ " = ")).Exact := by
  apply Template.exact_plain
  rw [countMarkers_append, h, countMarkers_words " = " (by decide)]

theorem filled_assignmentTemplate {c : ColumnValue} (h : countMarkers c.column = 0) :
    (assignmentTemplate c).filled = writtenAssignment c := by
  rw [assignmentTemplate, Template.filled_append (exact_column h), Template.filled_plain,
    Template.filled_hole, writtenAssignment]

include columns collections

theorem exact_assignments : ∀ t ∈ d.columns.map assignmentTemplate ++
    d.updateCollections.map (fun m => Template.plain (collectionAssignment m)), t.Exact := by
  intro t ht
  rcases List.mem_append.mp ht with ht | ht
  · obtain ⟨c, hc, rfl⟩ := List.mem_map.mp ht
    exact (exact_column (columns c hc)).append (Template.exact_hole c.value)
  · obtain ⟨m, hm, rfl⟩ := List.mem_map.mp ht
    exact Template.exact_plain (collections m hm)

theorem filled_assignmentsTemplate : d.assignmentsTemplate.filled = ", ".intercalate
    (d.columns.map writtenAssignment ++ d.updateCollections.map collectionAssignment) := by
  have scalars : d.columns.map (Template.filled ∘ assignmentTemplate) =
      d.columns.map writtenAssignment :=
    List.map_congr_left fun c hc => filled_assignmentTemplate (columns c hc)
  have others : d.updateCollections.map
      (Template.filled ∘ fun m => Template.plain (collectionAssignment m)) =
      d.updateCollections.map collectionAssignment :=
    List.map_congr_left fun m _ => Template.filled_plain (collectionAssignment m)
  rw [assignmentsTemplate, Template.filled_join (by decide) (exact_assignments columns collections),
    List.map_append, List.map_map, List.map_map, scalars, others]

end Assignments

theorem describes_update (operation : d.operation = .update) (h : d.compileUpdate = .ok s)
    (covered : countMarkers d.whereFragment = d.whereBindings.length) :
    ∃ t, Describes t d s := by
  obtain ⟨_, _, rfl⟩ := compileUpdate_eq_ok_iff.mp h
  have strays : d.strayMarkers = countMarkers d.table +
      ((d.columns.map ColumnValue.column).map countMarkers).sum +
      ((d.updateCollections.flatMap mutationTexts).map countMarkers).sum := by
    simp only [strayMarkers, printedTexts, operation, List.cons_append, List.map_cons,
      List.map_append, List.sum_cons, List.sum_append, Nat.add_assoc]
  refine ⟨Template.plain ("update " ++ Text.trim d.table ++ " set ") ++ d.assignmentsTemplate ++
      d.whereTemplate, ?_, ?_, ?_, ?_⟩
  · simp only [Template.text_append, Template.text_plain, text_assignmentsTemplate, whereTemplate]
  · simp only [Template.values_append, Template.values_plain, values_assignmentsTemplate,
      whereTemplate, List.nil_append]
  · simp (disch := decide) only [Template.text_append, Template.text_plain,
      text_assignmentsTemplate, Template.values_append, Template.values_plain,
      values_assignmentsTemplate, whereTemplate, List.nil_append, List.length_append,
      List.length_map, countMarkers_append, countMarkers_clause, countMarkers_trim,
      countMarkers_words, commaSeparated, countMarkers_commaSeparated, List.map_append,
      List.sum_append, countMarkers_columnAssignments, countMarkers_collectionAssignments, covered,
      strays]
    omega
  · intro none
    have front : countMarkers ("update " ++ Text.trim d.table ++ " set ") = 0 := by
      simp (disch := decide) only [countMarkers_append, countMarkers_trim, countMarkers_words]
      omega
    have columns : ∀ c ∈ d.columns, countMarkers c.column = 0 := fun c hc =>
      countMarkers_of_sum (by omega : ((d.columns.map ColumnValue.column).map countMarkers).sum = 0)
        (List.mem_map_of_mem hc)
    have mutations : ((d.updateCollections.map collectionAssignment).map countMarkers).sum = 0 := by
      rw [countMarkers_collectionAssignments]
      omega
    have collections : ∀ m ∈ d.updateCollections, countMarkers (collectionAssignment m) = 0 :=
      fun m hm => countMarkers_of_sum mutations (List.mem_map_of_mem hm)
    have body : d.assignmentsTemplate.Exact :=
      Template.Exact.join (by decide) (exact_assignments columns collections)
    have exact := (Template.exact_plain front).append body
    rw [Template.filled_append exact, Template.filled_append (Template.exact_plain front),
      filled_assignmentsTemplate columns collections, filled_whereTemplate covered]
    simp only [Template.filled_plain, written, operation]

end Operations
end CqlStatements.Descriptor
