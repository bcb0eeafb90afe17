import CqlStatements.Collection.Json
import CqlStatements.Descriptor

/-!
# Descriptors in JSON

A descriptor is a record of twelve fields, of which the operation and the table are required. All twelve
are written. An operation is its name, or an object whose one member has that name and is null.
-/
namespace CqlStatements

namespace Operation

def ofVariant (name : String) : Except Json.DecodeError Operation :=
  match ofName? name with
  | some operation => .ok operation
  | none => .error (.unknownVariant name (all.map Operation.name))

/-- Decodes an object in the place of a name, member by member as far as it goes. -/
def decodeMembers : List (Json.Key × Json) → Except Json.DecodeError Operation
  | (.text name, value) :: rest => do
      let operation ← ofVariant name
      match value, rest with
      | .null, [] => .ok operation
      | .null, _ => .error .malformed
      | value, _ => Json.unexpected "unit" value
  | _ => .error .malformed

def decode : Json.Decoder Operation
  | _, .string name => ofVariant name
  | _ + 1, .object members => decodeMembers members
  | _, _ => .error .malformed

end Operation

namespace ColumnValue

inductive Field where
  | column (column : String)
  | value (value : Scalar)
deriving DecidableEq, Repr

def record : Json.Record Field where
  name := "ColumnValue"
  fields :=
    [("column", fun room j => .column <$> Json.decodeText room j),
      ("value", fun room j => .value <$> Scalar.decode room j)]
  required := 2

def ofFields (found : List (String × Field)) : Except Json.DecodeError ColumnValue := do
  let column ← Json.Record.require "column" (fun | .column x => some x | _ => none) found
  let value ← Json.Record.require "value" (fun | .value x => some x | _ => none) found
  .ok ⟨column, value⟩

def decode : Json.Decoder ColumnValue := fun room j => do
  ofFields (← record.decode room j)

def toJson (c : ColumnValue) : Json :=
  .ofFields [("column", .string c.column), ("value", c.value.toJson)]

end ColumnValue

namespace Descriptor

inductive Field where
  | operation (operation : Operation)
  | table (table : String)
  | projection (names : List String)
  | whereFragment (text : String)
  | whereBindings (values : List Scalar)
  | trailing (text : String)
  | columns (row : Row)
  | batchRows (rows : List Row)
  | insertCollections (mutations : List Mutation)
  | updateCollections (mutations : List Mutation)
  | deleteColumns (names : List String)
  | indexColumns (names : List String)
deriving DecidableEq, Repr

def decodeNames : Json.Decoder (List String) := Json.decodeList Json.decodeText

def decodeRow : Json.Decoder Row := Json.decodeList ColumnValue.decode

def record : Json.Record Field where
  name := "QueryDescriptor"
  fields :=
    [("operation", fun room j => .operation <$> Operation.decode room j),
      ("table", fun room j => .table <$> Json.decodeText room j),
      ("projection", fun room j => .projection <$> decodeNames room j),
      ("where_fragment", fun room j => .whereFragment <$> Json.decodeText room j),
      ("where_bindings", fun room j => .whereBindings <$> Json.decodeList Scalar.decode room j),
      ("trailing", fun room j => .trailing <$> Json.decodeText room j),
      ("columns", fun room j => .columns <$> decodeRow room j),
      ("batch_rows", fun room j => .batchRows <$> Json.decodeList decodeRow room j),
      ("insert_collections",
        fun room j => .insertCollections <$> Json.decodeList Mutation.decode room j),
      ("update_collections",
        fun room j => .updateCollections <$> Json.decodeList Mutation.decode room j),
      ("delete_columns", fun room j => .deleteColumns <$> decodeNames room j),
      ("index_columns", fun room j => .indexColumns <$> decodeNames room j)]
  required := 2

/-- The value of a field, or what its absence stands for. -/
def orDefault {α : Type} (fallback : α) (pick : Field → Option α)
    (found : List (String × Field)) : α :=
  (Json.Record.find? pick found).getD fallback

def ofFields (found : List (String × Field)) : Except Json.DecodeError Descriptor := do
  let operation ← Json.Record.require "operation" (fun | .operation x => some x | _ => none) found
  let table ← Json.Record.require "table" (fun | .table x => some x | _ => none) found
  .ok
    { operation, table
      projection := orDefault [] (fun | .projection x => some x | _ => none) found
      whereFragment := orDefault "" (fun | .whereFragment x => some x | _ => none) found
      whereBindings := orDefault [] (fun | .whereBindings x => some x | _ => none) found
      trailing := orDefault "" (fun | .trailing x => some x | _ => none) found
      columns := orDefault [] (fun | .columns x => some x | _ => none) found
      batchRows := orDefault [] (fun | .batchRows x => some x | _ => none) found
      insertCollections := orDefault [] (fun | .insertCollections x => some x | _ => none) found
      updateCollections := orDefault [] (fun | .updateCollections x => some x | _ => none) found
      deleteColumns := orDefault [] (fun | .deleteColumns x => some x | _ => none) found
      indexColumns := orDefault [] (fun | .indexColumns x => some x | _ => none) found }

def decode : Json.Decoder Descriptor := fun room j => do
  ofFields (← record.decode room j)

def namesToJson (names : List String) : Json := .array (names.map .string)

def rowToJson (row : Row) : Json := .array (row.map ColumnValue.toJson)

def toJson (d : Descriptor) : Json :=
  .ofFields
    [("operation", .string d.operation.name),
      ("table", .string d.table),
      ("projection", namesToJson d.projection),
      ("where_fragment", .string d.whereFragment),
      ("where_bindings", .array (d.whereBindings.map Scalar.toJson)),
      ("trailing", .string d.trailing),
      ("columns", rowToJson d.columns),
      ("batch_rows", .array (d.batchRows.map rowToJson)),
      ("insert_collections", .array (d.insertCollections.map Mutation.toJson)),
      ("update_collections", .array (d.updateCollections.map Mutation.toJson)),
      ("delete_columns", namesToJson d.deleteColumns),
      ("index_columns", namesToJson d.indexColumns)]

/-- Reads a descriptor from JSON text. -/
def ofJsonText (text : String) : Except Json.DecodeError Descriptor :=
  Json.decodeWith decode text

/-- The compact JSON text of a descriptor. -/
def toJsonText (d : Descriptor) : String := d.toJson.compact

end Descriptor
end CqlStatements
