import CqlStatements.Collection

/-!
# Query descriptors

A descriptor holds all that one statement is made of. Which parts count depends on the operation. The
where fragment and the trailing text are the caller's own text and are not looked into; the where
bindings are the values for the markers in the fragment.
-/
namespace CqlStatements

/-- A column and its scalar value. -/
structure ColumnValue where
  column : String
  value : Scalar
deriving DecidableEq, Repr

abbrev Row := List ColumnValue

structure Descriptor where
  operation : Operation
  table : String
  /-- The columns of a select; none means all. -/
  projection : List String := []
  whereFragment : String := ""
  whereBindings : List Scalar := []
  /-- Text behind a select or an inserted row. -/
  trailing : String := ""
  /-- The assignments of an update or the first row of an insert. -/
  columns : Row := []
  /-- The further rows of an insert. -/
  batchRows : List Row := []
  insertCollections : List Mutation := []
  updateCollections : List Mutation := []
  /-- The columns a delete is limited to; none means whole rows. -/
  deleteColumns : List String := []
  indexColumns : List String := []
deriving DecidableEq, Repr

namespace Descriptor

/-- Sets the where fragment and its bindings. -/
def filter (d : Descriptor) (fragment : String) (bindings : List Scalar) : Descriptor :=
  { d with whereFragment := fragment, whereBindings := bindings }

def addColumn (d : Descriptor) (column : String) (value : Scalar) : Descriptor :=
  { d with columns := d.columns ++ [⟨column, value⟩] }

def addInsertCollection (d : Descriptor) (m : Mutation) : Descriptor :=
  { d with insertCollections := d.insertCollections ++ [m] }

def addUpdateCollection (d : Descriptor) (m : Mutation) : Descriptor :=
  { d with updateCollections := d.updateCollections ++ [m] }

end Descriptor
end CqlStatements
