import CqlStatements.Collection

/-!
# Collections in JSON

A collection is an array: of scalars if it is a row of elements, of arrays of two scalars if it is a row
of entries. The empty array is a row of elements. A kind is its name and a change is its symbol; reading
takes what typing takes.
-/
namespace CqlStatements

namespace Collection

def toJson : Collection → Json
  | elements items => .array (items.map Scalar.toJson)
  | entries pairs => .array (pairs.map fun pair => .array [pair.1.toJson, pair.2.toJson])

def entryOfJson? : Json → Option (Scalar × Scalar)
  | .array [key, value] => do
      let key ← Scalar.ofJson? key
      let value ← Scalar.ofJson? value
      some (key, value)
  | _ => none

def ofJson? : Json → Option Collection
  | .array items =>
      match items.mapM Scalar.ofJson? with
      | some scalars => some (.elements scalars)
      | none => (items.mapM entryOfJson?).map .entries
  | _ => none

def decode : Json.Decoder Collection :=
  Json.decodeWhole "CollectionValue" ofJson?

/-- Decodes a text that a parser of the domain accepts. -/
def decodeParsed {α : Type} (parse : String → Except Error α) : Json.Decoder α := fun room j => do
  let text ← Json.decodeText room j
  match parse text with
  | .ok x => .ok x
  | .error cause => .error (.rejected cause)

/-- Decodes a change, or null for none. -/
def Change.decode? : Json.Decoder (Option Change)
  | _, .null => .ok none
  | room, j => some <$> decodeParsed Change.parse room j

end Collection

namespace Mutation

inductive Field where
  | kind (kind : Collection.Kind)
  | column (column : String)
  | value (value : Collection)
  | operation (change : Option Collection.Change)
deriving DecidableEq, Repr

def record : Json.Record Field where
  name := "CollectionMutation"
  fields :=
    [("kind", fun room j => .kind <$> Collection.decodeParsed Collection.Kind.parse room j),
      ("column", fun room j => .column <$> Json.decodeText room j),
      ("value", fun room j => .value <$> Collection.decode room j),
      ("operation", fun room j => .operation <$> Collection.Change.decode? room j)]
  required := 3

def ofFields (found : List (String × Field)) : Except Json.DecodeError Mutation := do
  let kind ← Json.Record.require "kind" (fun | .kind x => some x | _ => none) found
  let column ← Json.Record.require "column" (fun | .column x => some x | _ => none) found
  let value ← Json.Record.require "value" (fun | .value x => some x | _ => none) found
  let change := Json.Record.find? (fun | .operation x => some x | _ => none) found
  .ok ⟨kind, column, value, change.getD none⟩

def decode : Json.Decoder Mutation := fun room j => do
  ofFields (← record.decode room j)

/-- The members of a mutation; one without a change has no operation. -/
def toJson (m : Mutation) : Json :=
  .ofFields
    ([("kind", .string m.kind.name), ("column", .string m.column), ("value", m.value.toJson)] ++
      match m.change with
      | none => []
      | some change => [("operation", .string change.symbol)])

end Mutation
end CqlStatements
