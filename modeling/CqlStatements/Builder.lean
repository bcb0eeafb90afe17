import CqlStatements.Statement.Compile

/-!
# Building descriptors step by step

A builder gathers the parts of a statement on one table, each kind of part in the order in which it
came, and hands out a descriptor for whichever operation is asked for. Conditions are joined by `and`
into one where fragment, and their bindings follow one another in the same order. A step that cannot
be taken leaves the builder as it was.
-/
namespace CqlStatements

/-- The direction of a sort column. -/
inductive Direction where
  | ascending
  | descending
deriving DecidableEq, Repr

def Direction.word : Direction → String
  | ascending => "asc"
  | descending => "desc"

structure Builder where
  table : String
  projection : List String := []
  conditions : List String := []
  bindings : List Scalar := []
  orders : List (String × Direction) := []
  limit : Option Nat := none
  insertCollections : List Mutation := []
  updateCollections : List Mutation := []
deriving DecidableEq, Repr

namespace Builder

/-- What a caller can add to a builder. Kinds and changes that come as text are read when the step is
taken. -/
inductive Step where
  | columns (names : List String)
  | condition (text : String) (bindings : List Scalar)
  | equals (column : String) (value : Scalar)
  | orderBy (column : String) (direction : Direction)
  | limit (count : Nat)
  | parsedInsert (kind column : String) (value : Collection)
  | parsedUpdate (kind column : String) (change : Option String) (value : Collection)
  | insertCollection (m : Mutation)
  | updateCollection (m : Mutation)
deriving DecidableEq, Repr

def addCondition (b : Builder) (text : String) (bindings : List Scalar) : Builder :=
  { b with conditions := b.conditions ++ [text], bindings := b.bindings ++ bindings }

def addInsert (b : Builder) (m : Mutation) : Builder :=
  { b with insertCollections := b.insertCollections ++ [m] }

def addUpdate (b : Builder) (m : Mutation) : Builder :=
  { b with updateCollections := b.updateCollections ++ [m] }

def take (b : Builder) : Step → Except Error Builder
  | .columns names => .ok { b with projection := b.projection ++ names }
  | .condition text bindings => .ok (b.addCondition text bindings)
  | .equals column value => .ok (b.addCondition (column ++ " = " ++ marker.toString) [value])
  | .orderBy column direction => .ok { b with orders := b.orders ++ [(column, direction)] }
  | .limit count => .ok { b with limit := some count }
  | .parsedInsert kind column value => b.addInsert <$> Mutation.parse kind column value none
  | .parsedUpdate kind column change value => b.addUpdate <$> Mutation.parse kind column value change
  | .insertCollection m => .ok (b.addInsert m)
  | .updateCollection m => .ok (b.addUpdate m)

/-- The builder after a step, which is the builder itself if the step cannot be taken. -/
def after (b : Builder) (step : Step) : Builder :=
  match b.take step with
  | .ok next => next
  | .error _ => b

/-- The builder of a table after a row of steps. -/
def ofSteps (table : String) (steps : List Step) : Builder :=
  steps.foldl after ⟨table, [], [], [], [], none, [], []⟩

def whereFragment (b : Builder) : String :=
  if b.conditions.isEmpty then "" else "where " ++ " and ".intercalate b.conditions

def orderText (order : String × Direction) : String :=
  order.1 ++ " " ++ order.2.word

/-- The text behind a select: its order, then its limit. -/
def trailing (b : Builder) : String :=
  let order :=
    if b.orders.isEmpty then []
    else ["order by " ++ Descriptor.commaSeparated (b.orders.map orderText)]
  let limit :=
    match b.limit with
    | none => []
    | some count => ["limit " ++ count.repr]
  " ".intercalate (order ++ limit)

/-- A descriptor with the builder's table and conditions. -/
def filtered (b : Builder) (operation : Operation) : Descriptor :=
  { operation, table := b.table, whereFragment := b.whereFragment, whereBindings := b.bindings }

def select (b : Builder) : Descriptor :=
  { b.filtered .select with projection := b.projection, trailing := b.trailing }

def insert (b : Builder) (row : Row) : Descriptor :=
  { operation := .insert, table := b.table, columns := row, insertCollections := b.insertCollections }

/-- Several rows in one statement, of which there must be at least one. -/
def insertBatch (b : Builder) : List Row → Except Error Descriptor
  | [] => .error (.malformed (.emptyBatch b.table))
  | first :: rest => .ok { b.insert first with batchRows := rest }

def update (b : Builder) (values : Row) : Descriptor :=
  { b.filtered .update with columns := values, updateCollections := b.updateCollections }

def deleteRow (b : Builder) : Descriptor :=
  b.filtered .delete

def deleteColumns (b : Builder) (columns : List String) : Descriptor :=
  { b.filtered .delete with deleteColumns := columns }

def createIndex (b : Builder) (columns : List String) : Descriptor :=
  { operation := .createIndex, table := b.table, indexColumns := columns }

/-- The select statement with its values put in. -/
def boundSelect (b : Builder) : Except Error String := do
  let statement ← b.select.compile
  statement.bound

end Builder
end CqlStatements
