import CqlStatements.Proofs.Rows

/-!
# What each compiler checks and writes

For each operation one statement says under which conditions its compiler succeeds and what it then
returns. Everything else about compiled statements is derived from these; the bodies of the compilers
are not opened again.
-/
namespace CqlStatements.Descriptor

/-- Whatever needs a table goes on with the trimmed one. -/
theorem requireTable_bind_eq_ok_iff {d : Descriptor} {next : String → Except Error Statement}
    {s : Statement} :
    d.requireTable >>= next = .ok s ↔
      Text.trim d.table ≠ "" ∧ next (Text.trim d.table) = .ok s := by
  unfold requireTable
  by_cases h : Text.trim d.table = ""
  · rw [if_pos (String.isEmpty_iff.mpr h)]
    constructor
    · intro none
      cases none
    · rintro ⟨named, _⟩
      exact absurd h named
  · rw [if_neg (mt String.isEmpty_iff.mp h)]
    exact ⟨fun h' => ⟨h, h'⟩, fun h' => h'.2⟩

theorem clause_eq (text : String) :
    clause text = if Text.trim text = "" then "" else " " ++ Text.trim text := by
  unfold clause
  by_cases h : Text.trim text = ""
  · rw [if_pos (String.isEmpty_iff.mpr h), if_pos h]
  · rw [if_neg (mt String.isEmpty_iff.mp h), if_neg h]

theorem compileSelect_eq_ok_iff {d : Descriptor} {s : Statement} :
    d.compileSelect = .ok s ↔ Text.trim d.table ≠ "" ∧
      s = ⟨.select,
        "select " ++ (if d.projection.isEmpty then "*" else commaSeparated d.projection) ++
          " from " ++ Text.trim d.table ++ clause d.whereFragment ++ clause d.trailing,
        d.whereBindings⟩ := by
  rw [compileSelect, requireTable_bind_eq_ok_iff, Except.ok.injEq, eq_comm (b := s)]

theorem compileDelete_eq_ok_iff {d : Descriptor} {s : Statement} :
    d.compileDelete = .ok s ↔ Text.trim d.table ≠ "" ∧
      s = ⟨.delete,
        "delete" ++ clause (commaSeparated d.deleteColumns) ++ " from " ++ Text.trim d.table ++
          clause d.whereFragment,
        d.whereBindings⟩ := by
  rw [compileDelete, requireTable_bind_eq_ok_iff, Except.ok.injEq, eq_comm (b := s)]

theorem compileCreateIndex_eq_ok_iff {d : Descriptor} {s : Statement} :
    d.compileCreateIndex = .ok s ↔ Text.trim d.table ≠ "" ∧ d.indexColumns ≠ [] ∧
      s = ⟨.createIndex,
        "create index if not exists on " ++ Text.trim d.table ++ "(" ++
          commaSeparated d.indexColumns ++ ")",
        []⟩ := by
  rw [compileCreateIndex, requireTable_bind_eq_ok_iff]
  by_cases h : d.indexColumns = []
  · simp only [h, List.isEmpty_nil, if_true, reduceCtorEq, ne_eq, not_true_eq_false, false_and]
  · rw [if_neg (mt List.isEmpty_iff.mp h), Except.ok.injEq, eq_comm (b := s)]
    simp only [ne_eq, h, not_false_eq_true, true_and]

/-- All assignments of an update stand in one row. -/
theorem assignments_eq (columns : Row) (collections : List Mutation) :
    assignments columns collections =
      commaSeparated (columns.map columnAssignment ++ collections.map collectionAssignment) := by
  unfold assignments
  cases collections with
  | nil => simp only [List.isEmpty_nil, if_true, List.map_nil, List.append_nil]
  | cons m collections =>
      rw [if_neg (by simp)]
      cases columns with
      | nil => simp [commaSeparated]
      | cons c columns =>
          -- The first assignment holds at least its equals sign.
          have written : commaSeparated ((c :: columns).map columnAssignment) ≠ "" := by
            rw [ne_eq, ← String.toList_inj]
            cases columns <;> simp [commaSeparated, columnAssignment]
          rw [if_neg (mt String.isEmpty_iff.mp written)]
          simp only [commaSeparated]
          rw [String.intercalate_append_of_ne_nil (by simp) (by simp)]

theorem compileUpdate_eq_ok_iff {d : Descriptor} {s : Statement} :
    d.compileUpdate = .ok s ↔ Text.trim d.table ≠ "" ∧
      ¬ (d.columns = [] ∧ d.updateCollections = []) ∧
      s = ⟨.update,
        "update " ++ Text.trim d.table ++ " set " ++
          commaSeparated (d.columns.map columnAssignment ++
            d.updateCollections.map collectionAssignment) ++ clause d.whereFragment,
        d.columns.map ColumnValue.value ++ d.whereBindings⟩ := by
  rw [compileUpdate, requireTable_bind_eq_ok_iff, ← assignments_eq]
  by_cases h : d.columns = [] ∧ d.updateCollections = []
  · simp [h.1, h.2]
  · rw [if_neg (by simpa using h), Except.ok.injEq, eq_comm (b := s)]
    simp only [h, not_false_eq_true, true_and]

/-- The text of a row of an insert, the same for every row. -/
def rowText (d : Descriptor) : String :=
  insertText (Text.trim d.table)
    (d.columns.map ColumnValue.column ++ d.insertCollections.map Mutation.column)
    d.columns.length (d.insertCollections.map Mutation.literal) d.trailing

theorem compileInsert_eq_ok_iff {d : Descriptor} {s : Statement} :
    d.compileInsert = .ok s ↔ Text.trim d.table ≠ "" ∧
      (d.columns.map ColumnValue.column).Nodup ∧
      ¬ (d.columns = [] ∧ d.insertCollections = []) ∧
      (∀ m ∈ d.insertCollections, m.change = none) ∧
      ∃ further, alignRows (d.columns.map ColumnValue.column) 2 d.batchRows = .ok further ∧
        s = ⟨.insert, batchText (List.replicate (further.length + 1) d.rowText),
          d.columns.map ColumnValue.value ++ further.flatten⟩ := by
  rw [compileInsert, requireTable_bind_eq_ok_iff]
  refine and_congr_right fun _ => ?_
  have repeated : firstRepeated [] (d.columns.map ColumnValue.column) = none ↔
      (d.columns.map ColumnValue.column).Nodup := by
    rw [firstRepeated_eq_none_iff]
    simp
  have unchanged : (d.insertCollections.find? fun m => m.change.isSome) = none ↔
      ∀ m ∈ d.insertCollections, m.change = none := by
    rw [List.find?_eq_none]
    simp
  dsimp only
  split
  · rename_i column found
    have again : ¬ (d.columns.map ColumnValue.column).Nodup := by
      rw [← repeated, found]
      exact Option.some_ne_none column
    simp [again]
  · rename_i none
    by_cases h : d.columns = [] ∧ d.insertCollections = []
    · simp [h.1, h.2]
    · rw [if_neg (by simpa using h), Fallible.bind_eq_ok_iff]
      simp only [repeated.mp none, h, not_false_eq_true, true_and]
      split
      · rename_i m found
        have changes : ¬ ∀ m ∈ d.insertCollections, m.change = Option.none := by
          rw [← unchanged, found]
          exact Option.some_ne_none m
        simp [changes]
      · rename_i plain
        rw [and_iff_right (unchanged.mp plain)]
        simp only [Except.ok.injEq, eq_comm (b := s), List.length_cons, List.flatten_cons,
          List.length_map, rowText]

end CqlStatements.Descriptor
