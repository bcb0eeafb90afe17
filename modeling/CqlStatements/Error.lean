/-!
# Statement kinds, and what can be wrong with a statement

The kinds of statement a descriptor can ask for have a name of one word, used in data, and a title, used
in text for readers. Errors, in a descriptor or in its values, are causes with the data they concern; the
wording is in `message` alone.
-/
namespace CqlStatements

inductive Operation where
  | select
  | insert
  | update
  | delete
  | createIndex
deriving DecidableEq, Repr

namespace Operation

def all : List Operation := [select, insert, update, delete, createIndex]

def name : Operation → String
  | select => "select"
  | insert => "insert"
  | update => "update"
  | delete => "delete"
  | createIndex => "create_index"

def title : Operation → String
  | createIndex => "create index"
  | operation => operation.name

def ofName? (s : String) : Option Operation :=
  all.find? fun operation => operation.name == s

theorem ofName?_name (operation : Operation) : ofName? operation.name = some operation := by
  cases operation <;> decide

end Operation

/-- A descriptor that lacks what its operation needs, or that contradicts itself. Rows of a batch are
counted from one, the first row being the descriptor's own columns. -/
inductive Malformed where
  | missingTable (operation : Operation)
  | unknownChange (text : String)
  | noIndexColumns (table : String)
  | noAssignments (table : String)
  | noInsertColumns (table : String)
  | repeatedColumn (column : String)
  | rowLength (row found expected : Nat)
  | rowColumns (row : Nat) (column : String)
  | insertChange (column : String)
  | emptyBatch (table : String)
deriving DecidableEq, Repr

def Malformed.message : Malformed → String
  | missingTable operation => operation.title ++ " without a table"
  | unknownChange text =>
      "unknown collection operation '" ++ text ++ "', expected '+' or '-'"
  | noIndexColumns table => "index on '" ++ table ++ "' names no columns"
  | noAssignments table => "update of '" ++ table ++ "' has no assignments"
  | noInsertColumns table => "insert into '" ++ table ++ "' has no columns"
  | repeatedColumn column => "column '" ++ column ++ "' appears twice in insert"
  | rowLength row found expected =>
      "batch row " ++ row.repr ++ " has " ++ found.repr ++ " column(s), expected " ++ expected.repr
  | rowColumns row column =>
      "batch row " ++ row.repr ++ " does not match the column set of the first row (column '" ++
        column ++ "')"
  | insertChange column =>
      "insert collection '" ++ column ++ "' cannot carry an operation"
  | emptyBatch table => "batch insert into '" ++ table ++ "' has no rows"

inductive Error where
  | unknownKind (text : String)
  | malformed (cause : Malformed)
  | tooFewValues (markers values : Nat)
deriving DecidableEq, Repr

def Error.message : Error → String
  | unknownKind text =>
      "Invalid collection kind: '" ++ text ++ "'. Expected one of: set, list, map"
  | malformed cause => "Malformed descriptor: " ++ cause.message
  | tooFewValues markers values =>
      "Binding count mismatch: " ++ markers.repr ++ " placeholder(s) but only " ++ values.repr ++
        " value(s)"

end CqlStatements
