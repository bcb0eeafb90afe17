import CqlStatements.Statement

/-!
# From descriptors to statements

Each operation has a compiler of its own. All of them need a table; all of them put the caller's own
clauses behind their text, each behind one space and without the blanks around it.

An insert checks, in this order, that its first row names no column twice, that there is something to
insert, that each further row has the columns of the first row, and that no collection carries a
change. Further rows are put into the column order of the first row. Several rows make one batch.
-/
namespace CqlStatements.Descriptor

/-- The table without blanks around it, which every statement needs. -/
def requireTable (d : Descriptor) : Except Error String :=
  if (Text.trim d.table).isEmpty then .error (.malformed (.missingTable d.operation))
  else .ok (Text.trim d.table)

/-- A clause to put behind a text: nothing if it is blank. -/
def clause (text : String) : String :=
  if (Text.trim text).isEmpty then "" else " " ++ Text.trim text

def commaSeparated (items : List String) : String :=
  ", ".intercalate items

def compileSelect (d : Descriptor) : Except Error Statement := do
  let table ← d.requireTable
  let columns := if d.projection.isEmpty then "*" else commaSeparated d.projection
  .ok ⟨.select,
    "select " ++ columns ++ " from " ++ table ++ clause d.whereFragment ++ clause d.trailing,
    d.whereBindings⟩

def compileDelete (d : Descriptor) : Except Error Statement := do
  let table ← d.requireTable
  .ok ⟨.delete,
    "delete" ++ clause (commaSeparated d.deleteColumns) ++ " from " ++ table ++
      clause d.whereFragment,
    d.whereBindings⟩

def compileCreateIndex (d : Descriptor) : Except Error Statement := do
  let table ← d.requireTable
  if d.indexColumns.isEmpty then .error (.malformed (.noIndexColumns table))
  else
    .ok ⟨.createIndex,
      "create index if not exists on " ++ table ++ "(" ++ commaSeparated d.indexColumns ++ ")", []⟩

/-- The assignment of a scalar column; its value takes the marker. -/
def columnAssignment (c : ColumnValue) : String :=
  c.column ++ " = " ++ marker.toString

/-- The assignment of a collection: a full literal, or a change of the column's own content. -/
def collectionAssignment (m : Mutation) : String :=
  match m.change with
  | none => m.column ++ "=" ++ m.literal
  | some change => m.column ++ "=" ++ m.column ++ change.symbol ++ m.literal

/-- The assignments of an update, scalars before collections. An empty text in front takes no comma. -/
def assignments (columns : Row) (collections : List Mutation) : String :=
  let scalars := commaSeparated (columns.map columnAssignment)
  if collections.isEmpty then scalars
  else
    (if scalars.isEmpty then "" else scalars ++ ", ") ++
      commaSeparated (collections.map collectionAssignment)

def compileUpdate (d : Descriptor) : Except Error Statement := do
  let table ← d.requireTable
  if d.columns.isEmpty && d.updateCollections.isEmpty then
    .error (.malformed (.noAssignments table))
  else
    .ok ⟨.update,
      "update " ++ table ++ " set " ++ assignments d.columns d.updateCollections ++
        clause d.whereFragment,
      d.columns.map ColumnValue.value ++ d.whereBindings⟩

/-- The first name that occurs a second time, looked for from the front. -/
def firstRepeated : List String → List String → Option String
  | _, [] => none
  | seen, name :: names =>
      if seen.contains name then some name else firstRepeated (name :: seen) names

/-- The one value that a row gives to a column. -/
def valueOf? (row : Row) (column : String) : Option Scalar :=
  match row.filter fun c => c.column == column with
  | [c] => some c.value
  | _ => none

/-- The values of a row in the order of the given columns, each of which it must name exactly once. -/
def alignRow (columns : List String) (row : Row) (position : Nat) : Except Error (List Scalar) :=
  if row.length ≠ columns.length then
    .error (.malformed (.rowLength position row.length columns.length))
  else
    columns.mapM fun column =>
      match valueOf? row column with
      | some value => .ok value
      | none => .error (.malformed (.rowColumns position column))

/-- The further rows in column order, the first of them being number `position`. -/
def alignRows (columns : List String) : Nat → List Row → Except Error (List (List Scalar))
  | _, [] => .ok []
  | position, row :: rows => do
      let values ← alignRow columns row position
      let rest ← alignRows columns (position + 1) rows
      .ok (values :: rest)

/-- One row's insert: a marker for each scalar column, then the collection literals. -/
def insertText (table : String) (columns : List String) (scalars : Nat) (literals : List String)
    (trailing : String) : String :=
  "insert into " ++ table ++ " (" ++ commaSeparated columns ++ ") values (" ++
    commaSeparated (List.replicate scalars marker.toString ++ literals) ++ ")" ++ clause trailing

/-- One statement as it is, several as a batch. -/
def batchText : List String → String
  | [statement] => statement
  | statements => "begin batch " ++ "; ".intercalate statements ++ "; apply batch"

def compileInsert (d : Descriptor) : Except Error Statement := do
  let table ← d.requireTable
  let columns := d.columns.map ColumnValue.column
  match firstRepeated [] columns with
  | some column => .error (.malformed (.repeatedColumn column))
  | none =>
      if columns.isEmpty && d.insertCollections.isEmpty then
        .error (.malformed (.noInsertColumns table))
      else
        let further ← alignRows columns 2 d.batchRows
        match d.insertCollections.find? fun m => m.change.isSome with
        | some m => .error (.malformed (.insertChange m.column))
        | none =>
            let text := insertText table (columns ++ d.insertCollections.map Mutation.column)
              columns.length (d.insertCollections.map Mutation.literal) d.trailing
            let rows := d.columns.map ColumnValue.value :: further
            .ok ⟨.insert, batchText (List.replicate rows.length text), rows.flatten⟩

def compile (d : Descriptor) : Except Error Statement :=
  match d.operation with
  | .select => d.compileSelect
  | .insert => d.compileInsert
  | .update => d.compileUpdate
  | .delete => d.compileDelete
  | .createIndex => d.compileCreateIndex

end CqlStatements.Descriptor
