import CqlStatements.Scalar
import CqlStatements.Text

/-!
# Collections and their literals

A collection is a row of elements or a row of keyed entries, in the order in which they were given.
Its literal depends on the kind of column it is written to. Only a map writes keys, and only if all of
them are strings; in every other case an entry counts as its value.
-/
namespace CqlStatements

inductive Collection where
  | elements (items : List Scalar)
  | entries (pairs : List (Scalar × Scalar))
deriving DecidableEq, Repr

namespace Collection

/-- The kind of a collection column. -/
inductive Kind where
  | set
  | list
  | map
deriving DecidableEq, Repr

namespace Kind

def name : Kind → String
  | set => "set"
  | list => "list"
  | map => "map"

/-- Reads the name of a kind in any letter case; blanks around it are not allowed. -/
def parse (text : String) : Except Error Kind :=
  let word := Text.lower text
  if word = "set" then .ok set
  else if word = "list" then .ok list
  else if word = "map" then .ok map
  else .error (.unknownKind text)

end Kind

/-- How an update changes the collection that is already there. -/
inductive Change where
  | append
  | remove
deriving DecidableEq, Repr

namespace Change

def symbol : Change → String
  | append => "+"
  | remove => "-"

/-- Reads a symbol or a word, in any letter case and with blanks around it. -/
def parse (text : String) : Except Error Change :=
  let word := Text.lower (Text.trim text)
  if word = "+" ∨ word = "append" then .ok append
  else if word = "-" ∨ word = "remove" then .ok remove
  else .error (.malformed (.unknownChange word))

end Change

/-- The values in order; keys do not count. -/
def values : Collection → List Scalar
  | elements items => items
  | entries pairs => pairs.map Prod.snd

/-- The entries, if there are any keys and all of them are strings. -/
def association? : Collection → Option (List (Scalar × Scalar))
  | elements _ => none
  | entries pairs => if pairs.all fun pair => pair.1.isString then some pairs else none

def separated (items : List String) : String :=
  ", ".intercalate items

def valuesText (c : Collection) : String :=
  separated (c.values.map Scalar.literal)

def entryText (pair : Scalar × Scalar) : String :=
  pair.1.literal ++ ":" ++ pair.2.literal

def mapText (c : Collection) : String :=
  match c.association? with
  | some pairs => separated (pairs.map entryText)
  | none => c.valuesText

/-- The literal of a collection in a column of the given kind. -/
def literal : Kind → Collection → String
  | .set, c => "\x7b" ++ c.valuesText ++ "\x7d"
  | .list, c => "[" ++ c.valuesText ++ "]"
  | .map, c => "\x7b" ++ c.mapText ++ "\x7d"

end Collection

/-- One collection written to a column: in full, or as a change of what is there. -/
structure Mutation where
  kind : Collection.Kind
  column : String
  value : Collection
  change : Option Collection.Change
deriving DecidableEq, Repr

namespace Mutation

def literal (m : Mutation) : String :=
  m.value.literal m.kind

/-- A mutation from the texts of its kind and of its change, read in this order. -/
def parse (kind column : String) (value : Collection) (change : Option String) :
    Except Error Mutation := do
  let kind ← Collection.Kind.parse kind
  match change with
  | none => .ok ⟨kind, column, value, none⟩
  | some text =>
      let change ← Collection.Change.parse text
      .ok ⟨kind, column, value, some change⟩

end Mutation
end CqlStatements
