import CqlStatements.Proofs.Fallible
import CqlStatements.Statement.Compile
import Mathlib.Data.List.Nodup
import Mathlib.Data.List.Perm.Subperm

/-!
# Putting rows into column order

A row is accepted next to a list of distinct columns exactly if it is a rearrangement of one row that
names these columns in order, and its values are then the values of that row. The check itself only
compares lengths and looks each column up, so this is a pigeonhole argument: distinct columns that are
all found in a row of the same length leave no place for another entry.

Looking a column up counts the entries with its name and does not see their order. So the order inside
a row never matters, to the values or to the error.
-/
namespace CqlStatements.Descriptor

/-- `ordered` has the entries of `row`, and they name the columns in the given order. -/
structure InOrder (columns : List String) (row ordered : Row) : Prop where
  perm : ordered.Perm row
  names : ordered.map ColumnValue.column = columns

theorem InOrder.length_eq {columns : List String} {row ordered : Row}
    (h : InOrder columns row ordered) : row.length = columns.length := by
  rw [← h.names, List.length_map, h.perm.length_eq]

theorem inOrder_self (row : Row) : InOrder (row.map ColumnValue.column) row row :=
  ⟨List.Perm.refl row, rfl⟩

theorem firstRepeated_eq_none_iff {seen names : List String} :
    firstRepeated seen names = none ↔ names.Nodup ∧ ∀ name ∈ names, name ∉ seen := by
  induction names generalizing seen with
  | nil => simp [firstRepeated]
  | cons name names ih =>
      rw [firstRepeated]
      by_cases known : seen.contains name = true
      · have hit : name ∈ seen := by simpa using known
        rw [if_pos known]
        constructor
        · intro h
          exact absurd h (by simp)
        · rintro ⟨_, fresh⟩
          exact absurd hit (fresh name List.mem_cons_self)
      · have miss : name ∉ seen := by simpa using known
        rw [if_neg known, ih, List.nodup_cons]
        constructor
        · rintro ⟨distinct, fresh⟩
          refine ⟨⟨fun again => fresh name again List.mem_cons_self, distinct⟩, ?_⟩
          intro other hother
          rcases List.mem_cons.mp hother with rfl | hother
          · exact miss
          · exact fun h => fresh other hother (List.mem_cons_of_mem name h)
        · rintro ⟨⟨once, distinct⟩, fresh⟩
          refine ⟨distinct, ?_⟩
          intro other hother h
          rcases List.mem_cons.mp h with rfl | h
          · exact once hother
          · exact fresh other (List.mem_cons_of_mem name hother) h

section Lookup

theorem valueOf?_eq_some_iff {row : Row} {column : String} {value : Scalar} :
    valueOf? row column = some value ↔
      row.filter (fun c => c.column == column) = [⟨column, value⟩] := by
  unfold valueOf?
  split
  · rename_i c found
    have named : c.column = column := by
      have : c ∈ row.filter fun c => c.column == column := by rw [found]; exact List.mem_singleton_self c
      simpa using (List.mem_filter.mp this).2
    rw [found]
    constructor
    · intro h
      cases c
      simp_all
    · intro h
      simp_all
  · rename_i several
    simp only [reduceCtorEq, false_iff]
    exact fun h => several _ h

theorem mem_of_valueOf? {row : Row} {column : String} {value : Scalar}
    (h : valueOf? row column = some value) : ⟨column, value⟩ ∈ row := by
  have found := valueOf?_eq_some_iff.mp h
  exact (List.mem_filter.mp (found ▸ List.mem_singleton_self _)).1

/-- The order of a row is not seen. -/
theorem valueOf?_perm {row other : Row} (h : row.Perm other) (column : String) :
    valueOf? row column = valueOf? other column := by
  have filtered := h.filter fun c => c.column == column
  apply Option.ext
  intro value
  rw [valueOf?_eq_some_iff, valueOf?_eq_some_iff]
  constructor
  · intro found
    rw [found] at filtered
    exact (List.singleton_perm.mp filtered).symm
  · intro found
    rw [found] at filtered
    exact List.perm_singleton.mp filtered

/-- If a row names its columns only once, every entry is found. -/
theorem valueOf?_of_mem {row : Row} (distinct : (row.map ColumnValue.column).Nodup)
    {c : ColumnValue} (h : c ∈ row) : valueOf? row c.column = some c.value := by
  rw [valueOf?_eq_some_iff]
  induction row with
  | nil => simp at h
  | cons first row ih =>
      rw [List.map_cons, List.nodup_cons] at distinct
      rcases List.mem_cons.mp h with rfl | h
      · have others : row.filter (fun other => other.column == c.column) = [] := by
          rw [List.filter_eq_nil_iff]
          intro other hother same
          have : other.column = c.column := by simpa using same
          exact distinct.1 (this ▸ List.mem_map_of_mem hother)
        rw [List.filter_cons_of_pos (by simp), others]
      · have differs : first.column ≠ c.column := by
          intro same
          exact distinct.1 (same ▸ List.mem_map_of_mem h)
        rw [List.filter_cons_of_neg (by simpa using differs), ih distinct.2 h]

end Lookup

section Alignment

/-- Entries that are found in a row for distinct columns, as many as the row has, are the row. -/
theorem inOrder_of_lookup {columns : List String} {row ordered : Row} (distinct : columns.Nodup)
    (length : row.length = columns.length) (names : ordered.map ColumnValue.column = columns)
    (found : ∀ c ∈ ordered, valueOf? row c.column = some c.value) : InOrder columns row ordered := by
  refine ⟨?_, names⟩
  have once : ordered.Nodup := List.Nodup.of_map ColumnValue.column (names ▸ distinct)
  have inside : ordered ⊆ row := fun c hc => mem_of_valueOf? (found c hc)
  have size : row.length = ordered.length := by rw [length, ← names, List.length_map]
  exact (List.subperm_of_subset once inside).perm_of_length_le (Nat.le_of_eq size)

/-- The entry of each column next to the value found for it. -/
theorem exists_entries {columns : List String} {row : Row} {values : List Scalar}
    (h : List.Forall₂ (fun column value => valueOf? row column = some value) columns values) :
    ∃ ordered : Row, ordered.map ColumnValue.column = columns ∧
      ordered.map ColumnValue.value = values ∧
      ∀ c ∈ ordered, valueOf? row c.column = some c.value := by
  induction h with
  | nil => exact ⟨[], rfl, rfl, by simp⟩
  | @cons column value columns values found _ ih =>
      obtain ⟨ordered, names, same, rest⟩ := ih
      refine ⟨⟨column, value⟩ :: ordered, by rw [List.map_cons, names],
        by rw [List.map_cons, same], ?_⟩
      intro c hc
      rcases List.mem_cons.mp hc with rfl | hc
      · exact found
      · exact rest c hc

/-- A row is accepted next to distinct columns exactly if it can be put into their order. -/
theorem alignRow_eq_ok_iff {columns : List String} {row : Row} {position : Nat}
    {values : List Scalar} (distinct : columns.Nodup) :
    alignRow columns row position = .ok values ↔
      ∃ ordered, InOrder columns row ordered ∧ ordered.map ColumnValue.value = values := by
  unfold alignRow
  constructor
  · intro h
    split at h
    · cases h
    · rename_i length
      have looked : List.Forall₂ (fun column value => valueOf? row column = some value)
          columns values := by
        refine (Fallible.mapM_eq_ok_iff.mp h).imp ?_
        intro column value found
        split at found
        · rename_i other hit
          rw [hit, Except.ok.inj found]
        · cases found
      obtain ⟨ordered, names, same, found⟩ := exists_entries looked
      exact ⟨ordered, inOrder_of_lookup distinct (not_not.mp length) names found, same⟩
  · rintro ⟨ordered, order, rfl⟩
    rw [if_neg (not_not.mpr order.length_eq), Fallible.mapM_eq_ok_iff, ← order.names,
      List.forall₂_map_left_iff, List.forall₂_map_right_iff, List.forall₂_same]
    intro c hc
    have distinctRow : (row.map ColumnValue.column).Nodup :=
      (order.perm.map ColumnValue.column).nodup_iff.mp (order.names ▸ distinct)
    rw [valueOf?_of_mem distinctRow (order.perm.mem_iff.mp hc)]

theorem alignRows_eq_ok_iff {columns : List String} {rows : List Row} {position : Nat}
    {lists : List (List Scalar)} (distinct : columns.Nodup) :
    alignRows columns position rows = .ok lists ↔
      ∃ ordered, List.Forall₂ (InOrder columns) rows ordered ∧
        ordered.map (List.map ColumnValue.value) = lists := by
  induction rows generalizing position lists with
  | nil =>
      rw [alignRows, Except.ok.injEq]
      constructor
      · rintro rfl
        exact ⟨[], .nil, rfl⟩
      · rintro ⟨ordered, rows, rfl⟩
        cases rows
        rfl
  | cons row rows ih =>
      rw [alignRows, Fallible.bind_eq_ok_iff]
      constructor
      · rintro ⟨values, first, h⟩
        obtain ⟨rest, hrest, h⟩ := Fallible.bind_eq_ok_iff.mp h
        obtain ⟨row', order, rfl⟩ := (alignRow_eq_ok_iff distinct).mp first
        obtain ⟨ordered, orders, rfl⟩ := ih.mp hrest
        exact ⟨row' :: ordered, .cons order orders, Except.ok.inj h⟩
      · rintro ⟨ordered, orders, rfl⟩
        cases orders with
        | @cons _ row' _ ordered order orders =>
            exact ⟨_, (alignRow_eq_ok_iff distinct).mpr ⟨row', order, rfl⟩,
              Fallible.bind_eq_ok_iff.mpr ⟨_, ih.mpr ⟨ordered, orders, rfl⟩, rfl⟩⟩

theorem alignRow_perm {row other : Row} (h : row.Perm other) (columns : List String)
    (position : Nat) : alignRow columns row position = alignRow columns other position := by
  unfold alignRow
  simp only [h.length_eq, valueOf?_perm h]

/-- The order inside the rows changes neither the values nor the error. -/
theorem alignRows_perm {rows others : List Row} (h : List.Forall₂ List.Perm rows others)
    (columns : List String) (position : Nat) :
    alignRows columns position rows = alignRows columns position others := by
  induction h generalizing position with
  | nil => rfl
  | cons same _ ih => simp only [alignRows, alignRow_perm same, ih]

end Alignment
end CqlStatements.Descriptor
