import CqlStatements.Proofs.InsertRows

/-!
# Which descriptors compile

A descriptor is well formed if it has a table and what its operation needs besides. This is said here
about the descriptor alone, without following a compiler through its checks, and it is what decides
whether the descriptor compiles. Only an insert needs more than that something is there: its first row
names each column once, and each further row names the same columns in an order of its own.

Compiling fails for want of a part or for a contradiction between parts, so each of its failures says
that the descriptor is malformed.
-/
namespace CqlStatements.Descriptor

/-- What an insert needs beside its table. -/
structure Insertable (d : Descriptor) : Prop where
  distinct : d.scalarNames.Nodup
  something : d.columns ≠ [] ∨ d.insertCollections ≠ []
  rows : ∀ row ∈ d.batchRows, (row.map ColumnValue.column).Perm d.scalarNames
  unchanged : ∀ m ∈ d.insertCollections, m.change = none

/-- What the operation of a descriptor needs beside a table. -/
def Supplied (d : Descriptor) : Prop :=
  match d.operation with
  | .select | .delete => True
  | .update => d.columns ≠ [] ∨ d.updateCollections ≠ []
  | .createIndex => d.indexColumns ≠ []
  | .insert => d.Insertable

structure WellFormed (d : Descriptor) : Prop where
  table : Text.trim d.table ≠ ""
  supplied : d.Supplied

section Deciding

theorem insertable_iff {d : Descriptor} : d.Insertable ↔ d.scalarNames.Nodup ∧
    (d.columns ≠ [] ∨ d.insertCollections ≠ []) ∧
    (∀ row ∈ d.batchRows, (row.map ColumnValue.column).Perm d.scalarNames) ∧
    ∀ m ∈ d.insertCollections, m.change = none :=
  ⟨fun h => ⟨h.distinct, h.something, h.rows, h.unchanged⟩,
    fun ⟨distinct, something, rows, unchanged⟩ => ⟨distinct, something, rows, unchanged⟩⟩

instance (d : Descriptor) : Decidable d.Insertable := decidable_of_iff' _ insertable_iff

instance (d : Descriptor) : Decidable d.Supplied :=
  match h : d.operation with
  | .select | .delete => .isTrue (by simp only [Supplied, h])
  | .update =>
      decidable_of_iff (d.columns ≠ [] ∨ d.updateCollections ≠ []) (by simp only [Supplied, h])
  | .createIndex => decidable_of_iff (d.indexColumns ≠ []) (by simp only [Supplied, h])
  | .insert => decidable_of_iff d.Insertable (by simp only [Supplied, h])

instance (d : Descriptor) : Decidable d.WellFormed :=
  decidable_of_iff (Text.trim d.table ≠ "" ∧ d.Supplied)
    ⟨fun ⟨table, supplied⟩ => ⟨table, supplied⟩, fun h => ⟨h.table, h.supplied⟩⟩

end Deciding

section Rows

variable {columns : List String}

/-- Entries whose names are a rearrangement of the columns can themselves be rearranged to them. -/
theorem exists_inOrder_iff {row : Row} :
    (∃ ordered, InOrder columns row ordered) ↔ (row.map ColumnValue.column).Perm columns := by
  constructor
  · rintro ⟨ordered, order⟩
    rw [← order.names]
    exact (order.perm.map ColumnValue.column).symm
  · intro names
    have own : List.Forall₂ (fun name c => ColumnValue.column c = name)
        (row.map ColumnValue.column) row := by
      rw [List.forall₂_map_left_iff, List.forall₂_same]
      exact fun _ _ => rfl
    obtain ⟨ordered, matched, perm⟩ := List.perm_comp_forall₂ names.symm own
    refine ⟨ordered, perm, ?_⟩
    rw [← List.forall₂_eq_eq_eq, List.forall₂_map_left_iff]
    exact matched.flip

/-- The further rows are accepted exactly if each names the columns, in whatever order. -/
theorem exists_alignRows_iff (distinct : columns.Nodup) {rows : List Row} {position : ℕ} :
    (∃ lists, alignRows columns position rows = .ok lists) ↔
      ∀ row ∈ rows, (row.map ColumnValue.column).Perm columns := by
  simp only [alignRows_eq_ok_iff distinct, ← exists_inOrder_iff]
  constructor
  · rintro ⟨_, ordered, orders, _⟩ row member
    obtain ⟨i, inside, rfl⟩ := List.getElem_of_mem member
    exact ⟨_, orders.get inside (orders.length_eq ▸ inside)⟩
  · intro each
    suffices ∃ ordered, List.Forall₂ (InOrder columns) rows ordered by
      obtain ⟨ordered, orders⟩ := this
      exact ⟨_, ordered, orders, rfl⟩
    induction rows with
    | nil => exact ⟨[], .nil⟩
    | cons row rows ih =>
        obtain ⟨first, order⟩ := each row List.mem_cons_self
        obtain ⟨rest, orders⟩ := ih fun other member => each other (List.mem_cons_of_mem row member)
        exact ⟨first :: rest, .cons order orders⟩

end Rows

section Success

variable {d : Descriptor}

theorem exists_compileInsert_iff :
    (∃ s, d.compileInsert = .ok s) ↔ Text.trim d.table ≠ "" ∧ d.Insertable := by
  simp only [compileInsert_eq_ok_iff, exists_and_left]
  refine and_congr_right fun _ => ?_
  constructor
  · rintro ⟨distinct, something, unchanged, s, further, aligned, _⟩
    refine ⟨distinct, ?_, (exists_alignRows_iff distinct).mp ⟨further, aligned⟩, unchanged⟩
    exact not_and_or.mp something
  · rintro ⟨distinct, something, rows, unchanged⟩
    have accepted : ∃ further, alignRows d.scalarNames 2 d.batchRows = .ok further :=
      (exists_alignRows_iff distinct).mpr rows
    obtain ⟨further, aligned⟩ := accepted
    exact ⟨distinct, not_and_or.mpr something, unchanged, _, further, aligned, rfl⟩

theorem exists_compile_iff : (∃ s, d.compile = .ok s) ↔ d.WellFormed := by
  have split : d.WellFormed ↔ Text.trim d.table ≠ "" ∧ d.Supplied :=
    ⟨fun h => ⟨h.table, h.supplied⟩, fun ⟨table, supplied⟩ => ⟨table, supplied⟩⟩
  rw [split]
  cases operation : d.operation with
  | select =>
      simp only [compile, Supplied, operation, compileSelect_eq_ok_iff, exists_and_left,
        exists_eq]
  | insert => simp only [compile, Supplied, operation, exists_compileInsert_iff]
  | update =>
      simp only [compile, Supplied, operation, compileUpdate_eq_ok_iff, exists_and_left, exists_eq,
        and_true, not_and_or, ne_eq]
  | delete =>
      simp only [compile, Supplied, operation, compileDelete_eq_ok_iff, exists_and_left, exists_eq]
  | createIndex =>
      simp only [compile, Supplied, operation, compileCreateIndex_eq_ok_iff, exists_and_left,
        exists_eq, and_true]

end Success

section Failure

/-- If it fails, then on a malformed descriptor. -/
def OnlyMalformed {α : Type} (x : Except Error α) : Prop :=
  ∀ e, x = .error e → ∃ cause, e = .malformed cause

variable {α β : Type}

theorem onlyMalformed_ok (a : α) : OnlyMalformed (.ok a) := by
  intro e failed
  cases failed

theorem onlyMalformed_malformed (cause : Malformed) :
    OnlyMalformed (.error (.malformed cause) : Except Error α) := by
  intro e failed
  exact ⟨cause, (Except.error.inj failed).symm⟩

theorem OnlyMalformed.bind {x : Except Error α} {f : α → Except Error β} (first : OnlyMalformed x)
    (next : ∀ a, OnlyMalformed (f a)) : OnlyMalformed (x >>= f) := by
  intro e failed
  rcases Fallible.bind_eq_error_iff.mp failed with failed | ⟨a, _, failed⟩
  · exact first e failed
  · exact next a e failed

theorem onlyMalformed_mapM {f : α → Except Error β} (each : ∀ a, OnlyMalformed (f a))
    (as : List α) : OnlyMalformed (as.mapM f) := by
  induction as with
  | nil => exact onlyMalformed_ok []
  | cons a as ih =>
      rw [List.mapM_cons]
      exact (each a).bind fun b => ih.bind fun bs => onlyMalformed_ok (b :: bs)

theorem onlyMalformed_requireTable (d : Descriptor) : OnlyMalformed d.requireTable := by
  unfold requireTable
  split
  · exact onlyMalformed_malformed _
  · exact onlyMalformed_ok _

theorem onlyMalformed_alignRow (columns : List String) (row : Row) (position : ℕ) :
    OnlyMalformed (alignRow columns row position) := by
  unfold alignRow
  split
  · exact onlyMalformed_malformed _
  · refine onlyMalformed_mapM (fun column => ?_) columns
    split
    · exact onlyMalformed_ok _
    · exact onlyMalformed_malformed _

theorem onlyMalformed_alignRows (columns : List String) (position : ℕ) (rows : List Row) :
    OnlyMalformed (alignRows columns position rows) := by
  induction rows generalizing position with
  | nil => exact onlyMalformed_ok []
  | cons row rows ih =>
      exact (onlyMalformed_alignRow columns row position).bind fun values =>
        (ih (position + 1)).bind fun rest => onlyMalformed_ok (values :: rest)

theorem onlyMalformed_compileInsert (d : Descriptor) : OnlyMalformed d.compileInsert := by
  refine (onlyMalformed_requireTable d).bind fun table => ?_
  dsimp only
  split
  · exact onlyMalformed_malformed _
  · split
    · exact onlyMalformed_malformed _
    · refine (onlyMalformed_alignRows _ 2 d.batchRows).bind fun further => ?_
      split
      · exact onlyMalformed_malformed _
      · exact onlyMalformed_ok _

theorem onlyMalformed_compile (d : Descriptor) : OnlyMalformed d.compile := by
  have table := onlyMalformed_requireTable d
  unfold compile
  split
  · exact table.bind fun _ => onlyMalformed_ok _
  · exact onlyMalformed_compileInsert d
  · refine table.bind fun _ => ?_
    split
    · exact onlyMalformed_malformed _
    · exact onlyMalformed_ok _
  · exact table.bind fun _ => onlyMalformed_ok _
  · refine table.bind fun _ => ?_
    split
    · exact onlyMalformed_malformed _
    · exact onlyMalformed_ok _

end Failure

/-- A descriptor compiles exactly if it is well formed, and whenever it does not compile it is reported
as malformed. -/
theorem compile_exact (d : Descriptor) :
    ((∃ s, d.compile = .ok s) ↔ d.WellFormed) ∧
      ((∃ e, d.compile = .error e) ↔ ∃ cause, d.compile = .error (.malformed cause)) := by
  refine ⟨exists_compile_iff, ?_⟩
  constructor
  · rintro ⟨e, failed⟩
    obtain ⟨cause, rfl⟩ := onlyMalformed_compile d e failed
    exact ⟨cause, failed⟩
  · rintro ⟨cause, failed⟩
    exact ⟨_, failed⟩

/-- A further row of the right length that names one column twice. -/
example : ¬ ({ operation := .insert, table := "t", columns := [⟨"a", .null⟩, ⟨"b", .null⟩]
               batchRows := [[⟨"b", .null⟩, ⟨"b", .null⟩]] } : Descriptor).WellFormed := by
  decide

end CqlStatements.Descriptor
