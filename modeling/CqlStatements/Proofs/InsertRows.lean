import CqlStatements.Proofs.Compilation

/-!
# Columns, values and parameters of an insert

All rows of an insert have one text. What tells them apart is their share of the parameters: as many
values as there are scalar columns, in column order, one row's share behind the other's. The rows may
come in any order of their own; a compiled insert is the same as if they had come in column order.
-/
namespace CqlStatements.Descriptor

section Shares

variable {α : Type}

theorem length_flatten_uniform {lists : List (List α)} {n : ℕ} (h : ∀ l ∈ lists, l.length = n) :
    lists.flatten.length = lists.length * n := by
  induction lists with
  | nil => simp
  | cons l lists ih =>
      rw [List.flatten_cons, List.length_append, h l List.mem_cons_self,
        ih fun m hm => h m (List.mem_cons_of_mem l hm), List.length_cons, Nat.succ_mul, Nat.add_comm]

/-- The share of one list among lists of the same length. -/
theorem take_drop_flatten_uniform {lists : List (List α)} {n r : ℕ} {l : List α}
    (h : ∀ l ∈ lists, l.length = n) (hr : lists[r]? = some l) :
    (lists.flatten.drop (r * n)).take n = l := by
  induction lists generalizing r with
  | nil => simp at hr
  | cons first lists ih =>
      have length : first.length = n := h first List.mem_cons_self
      cases r with
      | zero =>
          rw [List.getElem?_cons_zero, Option.some.injEq] at hr
          subst hr
          rw [Nat.zero_mul, List.drop_zero, List.flatten_cons, ← length, List.take_left]
      | succ r =>
          rw [List.getElem?_cons_succ] at hr
          have skip : (r + 1) * n = first.length + r * n := by rw [length, Nat.succ_mul, Nat.add_comm]
          rw [List.flatten_cons, skip, List.drop_length_add_append]
          exact ih (fun m hm => h m (List.mem_cons_of_mem first hm)) hr

end Shares

/-- All rows of an insert, the descriptor's own columns being the first. -/
def rows (d : Descriptor) : List Row := d.columns :: d.batchRows

/-- The names of the scalar columns in the order of the first row. -/
def scalarNames (d : Descriptor) : List String := d.columns.map ColumnValue.column

/-- A compiled insert only sees its rows put into column order. -/
theorem exists_ordered_rows {d : Descriptor} {s : Statement} (h : d.compileInsert = .ok s) :
    ∃ ordered, List.Forall₂ (InOrder d.scalarNames) d.rows ordered ∧
      s = ⟨.insert, batchText (List.replicate d.rows.length d.rowText),
        (ordered.map (List.map ColumnValue.value)).flatten⟩ := by
  obtain ⟨_, distinct, _, _, further, aligned, rfl⟩ := compileInsert_eq_ok_iff.mp h
  obtain ⟨ordered, orders, rfl⟩ := (alignRows_eq_ok_iff distinct).mp aligned
  refine ⟨d.columns :: ordered, .cons (inOrder_self d.columns) orders, ?_⟩
  rw [List.length_map, ← orders.length_eq]
  rfl

/-- The descriptor of one row of an insert. -/
def alone (d : Descriptor) (row : Row) : Descriptor := { d with columns := row, batchRows := [] }

theorem rowText_alone {d : Descriptor} {row : Row}
    (names : row.map ColumnValue.column = d.scalarNames) : (d.alone row).rowText = d.rowText := by
  have length : row.length = d.columns.length := by
    rw [← List.length_map ColumnValue.column, names, scalarNames, List.length_map]
  unfold rowText alone
  simp only [names, length, scalarNames]

/-- A row put into column order is compiled to the common text and its own values. -/
theorem compile_alone {d : Descriptor} {s : Statement} (operation : d.operation = .insert)
    (h : d.compileInsert = .ok s) {row ordered : Row} (order : InOrder d.scalarNames row ordered) :
    (d.alone ordered).compile = .ok ⟨.insert, d.rowText, ordered.map ColumnValue.value⟩ := by
  obtain ⟨named, distinct, some, plain, _⟩ := compileInsert_eq_ok_iff.mp h
  have run : (d.alone ordered).compile = (d.alone ordered).compileInsert := by
    simp only [compile, alone, operation]
  rw [run, compileInsert_eq_ok_iff, rowText_alone order.names]
  refine ⟨named, ?_, ?_, plain, [], rfl, ?_⟩
  · exact order.names ▸ distinct
  · rintro ⟨none, empty⟩
    have : d.scalarNames = [] := by rw [← order.names, show ordered = [] from none, List.map_nil]
    exact some ⟨List.map_eq_nil_iff.mp this, empty⟩
  · simp only [batchText, List.length_nil, List.replicate, alone, List.flatten_nil, List.append_nil]

/-- The column list of an insert: scalars in first-row order in front of the collections. -/
def insertNames (d : Descriptor) : List String :=
  d.scalarNames ++ d.insertCollections.map Mutation.column

/-- What stands at the positions of the columns: a marker for each scalar, for each collection its
literal. -/
def insertValues (d : Descriptor) : List String :=
  List.replicate d.columns.length marker.toString ++ d.insertCollections.map Mutation.literal

theorem rowText_eq (d : Descriptor) :
    d.rowText = "insert into " ++ Text.trim d.table ++ " (" ++ ", ".intercalate d.insertNames ++
      ") values (" ++ ", ".intercalate d.insertValues ++ ")" ++
      (if Text.trim d.trailing = "" then "" else " " ++ Text.trim d.trailing) := by
  rw [← clause_eq]
  rfl

theorem batchText_replicate (text : String) (n : ℕ) :
    batchText (List.replicate (n + 1) text) =
      if n = 0 then text
      else "begin batch " ++ "; ".intercalate (List.replicate (n + 1) text) ++ "; apply batch" := by
  cases n with
  | zero => rw [if_pos rfl]; rfl
  | succ n =>
      rw [if_neg (Nat.succ_ne_zero n)]
      simp only [List.replicate_succ, batchText]

/-- How the rows, the columns and the parameters of a compiled insert belong together. -/
structure Correspondence (d : Descriptor) (s : Statement) : Prop where
  /-- One row makes one statement, several make a batch of statements with one text. -/
  text : s.text =
    if d.batchRows.length = 0 then d.rowText
    else "begin batch " ++
      "; ".intercalate (List.replicate (d.batchRows.length + 1) d.rowText) ++ "; apply batch"
  row : d.rowText = "insert into " ++ Text.trim d.table ++ " (" ++
    ", ".intercalate d.insertNames ++ ") values (" ++ ", ".intercalate d.insertValues ++ ")" ++
    (if Text.trim d.trailing = "" then "" else " " ++ Text.trim d.trailing)
  length_names : d.insertNames.length = d.columns.length + d.insertCollections.length
  length_values : d.insertValues.length = d.columns.length + d.insertCollections.length
  length_parameters : s.parameters.length = (d.batchRows.length + 1) * d.columns.length
  /-- A parameter is the one value that its row gives to its column. -/
  parameter : ∀ r i row column, d.rows[r]? = some row → d.scalarNames[i]? = some column →
    ∃ v, s.parameters[r * d.columns.length + i]? = some v ∧
      row.filter (fun c => c.column == column) = [⟨column, v⟩]
  /-- A row's statement and share of the parameters are those of the row compiled alone. -/
  alone : ∀ r row, d.rows[r]? = some row → ∃ ordered, InOrder d.scalarNames row ordered ∧
    (d.alone ordered).compile =
      .ok ⟨.insert, d.rowText,
        (s.parameters.drop (r * d.columns.length)).take d.columns.length⟩

/-- Rows in column order have one value for each column. -/
theorem length_values_of_ordered {columns : List String} {rows ordered : List Row}
    (h : List.Forall₂ (InOrder columns) rows ordered) :
    ∀ values ∈ ordered.map (List.map ColumnValue.value), values.length = columns.length := by
  induction h with
  | nil => simp
  | cons order _ ih =>
      intro values member
      rcases List.mem_cons.mp member with rfl | member
      · rw [List.length_map, ← order.names, List.length_map]
      · exact ih values member

/-- The share of each row consists of its own values in column order. -/
theorem exists_share {d : Descriptor} {s : Statement} (h : d.compileInsert = .ok s) {r : ℕ}
    {row : Row} (hr : d.rows[r]? = some row) :
    ∃ ordered, InOrder d.scalarNames row ordered ∧
      (s.parameters.drop (r * d.columns.length)).take d.columns.length =
        ordered.map ColumnValue.value := by
  obtain ⟨all, orders, rfl⟩ := exists_ordered_rows h
  obtain ⟨inside, rfl⟩ := List.getElem?_eq_some_iff.mp hr
  have inside' : r < all.length := orders.length_eq ▸ inside
  have order : InOrder d.scalarNames d.rows[r] all[r] := orders.get inside inside'
  refine ⟨all[r], order, take_drop_flatten_uniform ?_ ?_⟩
  · intro values member
    rw [length_values_of_ordered orders values member, scalarNames, List.length_map]
  · rw [List.getElem?_map, List.getElem?_eq_getElem inside', Option.map_some]

/-- A row in column order holds the one entry of each column at the column's position. -/
theorem InOrder.entry {columns : List String} {row ordered : Row} (h : InOrder columns row ordered)
    (distinct : columns.Nodup) {i : ℕ} {column : String} (hi : columns[i]? = some column) :
    ∃ v, (ordered.map ColumnValue.value)[i]? = some v ∧
      row.filter (fun c => c.column == column) = [⟨column, v⟩] := by
  rw [← h.names, List.getElem?_map, Option.map_eq_some_iff] at hi
  obtain ⟨c, at_i, rfl⟩ := hi
  refine ⟨c.value, by rw [List.getElem?_map, at_i, Option.map_some], ?_⟩
  have distinctRow : (row.map ColumnValue.column).Nodup :=
    (h.perm.map ColumnValue.column).nodup_iff.mp (h.names ▸ distinct)
  have member : c ∈ row := h.perm.mem_iff.mp (List.mem_of_getElem? at_i)
  exact valueOf?_eq_some_iff.mp (valueOf?_of_mem distinctRow member)

/-- The number of a parameter is its column's position inside its row's share. -/
theorem getElem?_of_share {d : Descriptor} {s : Statement} {r i : ℕ} {share : List Scalar}
    (h : (s.parameters.drop (r * d.columns.length)).take d.columns.length = share)
    (hi : i < d.columns.length) : s.parameters[r * d.columns.length + i]? = share[i]? := by
  rw [← h, List.getElem?_take_of_lt hi, List.getElem?_drop]

/-- Every insert that compiles keeps its columns, values and parameters together, and the order inside
its further rows has no effect. -/
theorem insert_correspondence {d : Descriptor} {s : Statement} (operation : d.operation = .insert)
    (h : d.compile = .ok s) :
    Correspondence d s ∧
      ∀ rows, List.Forall₂ List.Perm d.batchRows rows →
        { d with batchRows := rows }.compile = .ok s := by
  have run : d.compileInsert = .ok s := by
    simpa only [compile, operation] using h
  obtain ⟨all, orders, same⟩ := exists_ordered_rows run
  have size : d.rows.length = d.batchRows.length + 1 := rfl
  have distinct : d.scalarNames.Nodup := (compileInsert_eq_ok_iff.mp run).2.1
  refine ⟨⟨?_, rowText_eq d, ?_, ?_, ?_, ?_, ?_⟩, ?_⟩
  · rw [same, size]
    exact batchText_replicate d.rowText d.batchRows.length
  · simp only [insertNames, scalarNames, List.length_append, List.length_map]
  · simp only [insertValues, List.length_append, List.length_replicate, List.length_map]
  · have uniform := length_values_of_ordered orders
    rw [scalarNames, List.length_map] at uniform
    rw [same, length_flatten_uniform uniform, List.length_map, ← orders.length_eq, size]
  · intro r i row column hr hi
    obtain ⟨ordered, order, share⟩ := exists_share run hr
    obtain ⟨v, value, entry⟩ := order.entry distinct hi
    have inside : i < d.columns.length := by
      have := (List.getElem?_eq_some_iff.mp hi).1
      simpa only [scalarNames, List.length_map] using this
    exact ⟨v, (getElem?_of_share share inside).trans value, entry⟩
  · intro r row hr
    obtain ⟨ordered, order, share⟩ := exists_share run hr
    refine ⟨ordered, order, ?_⟩
    rw [share]
    exact compile_alone operation run order
  · intro rows permuted
    have aligned := alignRows_perm permuted d.scalarNames 2
    have insert : ({ d with batchRows := rows } : Descriptor).compile =
        ({ d with batchRows := rows } : Descriptor).compileInsert := by
      simp only [compile, operation]
    rw [insert, ← run]
    unfold compileInsert
    simp only [requireTable, scalarNames] at aligned ⊢
    rw [aligned]

/-- Two rows, the second written in another order, beside a collection and a trailing clause. -/
def reordered : Descriptor :=
  { operation := .insert, table := " t ", trailing := " using ttl 5"
    columns := [⟨"a", .int 1⟩, ⟨"b", .string "x?"⟩]
    batchRows := [[⟨"b", .null⟩, ⟨"a", .int 2⟩]]
    insertCollections := [⟨.list, "c", .elements [.bool true], none⟩] }

def reorderedStatement : Statement :=
  ⟨.insert,
    "begin batch insert into t (a, b, c) values (?, ?, [true]) using ttl 5; " ++
      "insert into t (a, b, c) values (?, ?, [true]) using ttl 5; apply batch",
    [.int 1, .string "x?", .int 2, .null]⟩

theorem insert_correspondence_reordered :
    reordered.operation = .insert ∧ reordered.compile = .ok reorderedStatement ∧
      Correspondence reordered reorderedStatement ∧
      ∀ rows, List.Forall₂ List.Perm reordered.batchRows rows →
        { reordered with batchRows := rows }.compile = .ok reorderedStatement :=
  ⟨rfl, rfl, insert_correspondence rfl rfl⟩

end CqlStatements.Descriptor
