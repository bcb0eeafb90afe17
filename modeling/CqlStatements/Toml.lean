import CqlStatements.Binary64

/-!
# TOML documents

A document is a table built line by line. How a table came to be decides who may add to it. A table
written in braces is complete. One opened by a header cannot be opened again, and a dotted key does not
reach into it. One that only lies on the way of a longer header may still be opened by its own, and one
made by dotted keys takes more of them. The way of a header or key leads through the last element of an
array of tables.
-/
namespace CqlStatements

/-- How a table came to be. -/
inductive Toml.Origin where
  /-- Written in braces. -/
  | inline
  /-- Opened by its own header. -/
  | header
  /-- On the way of a header. -/
  | implied
  /-- On the way of a dotted key. -/
  | dotted
deriving DecidableEq, Repr

inductive Toml where
  | string (s : String)
  | integer (n : Int64)
  | float (x : Binary64)
  | boolean (b : Bool)
  /-- A date, a time or both; which one does not matter. -/
  | moment
  | array (items : List Toml)
  | table (origin : Toml.Origin) (entries : List (String × Toml))
  /-- Tables opened one after the other by headers in double brackets. -/
  | tables (items : List Toml)

namespace Toml

abbrev Entries := List (String × Toml)

/-- A way to a table: the way of a header or of a dotted key. -/
inductive Way where
  | header
  | key
deriving DecidableEq, Repr

/-- The origin of a table made on the way. -/
def Way.origin : Way → Origin
  | header => .implied
  | key => .dotted

/-- Whether the way leads through a table of the given origin. -/
def Way.enters : Way → Origin → Bool
  | _, .inline => false
  | header, _ => true
  | key, .header => false
  | key, _ => true

/-- The entries with another value for a key that is there. -/
def replace (key : String) (value : Toml) : Entries → Entries
  | [] => []
  | entry :: entries =>
      if entry.1 = key then (key, value) :: entries else entry :: replace key value entries

/-- Acts on the entries of the table at the end of a path, making the tables that are not there yet. -/
def update (way : Way) (action : Origin → Entries → Option Entries) :
    List String → Origin → Entries → Option Entries
  | [], origin, entries => action origin entries
  | key :: path, _, entries =>
      match entries.lookup key with
      | none =>
          (update way action path way.origin []).map fun made =>
            entries ++ [(key, .table way.origin made)]
      | some (.table origin inner) =>
          if way.enters origin then
            (update way action path origin inner).map fun made =>
              replace key (.table origin made) entries
          else none
      | some (.tables items) =>
          match items.getLast? with
          | some (.table origin inner) =>
              (update way action path origin inner).map fun made =>
                replace key (.tables (items.dropLast ++ [.table origin made])) entries
          | _ => none
      | some _ => none

/-- Adds a value under a dotted key, whose last part must be new. If there are parts before it, they
must lead to a table made by dotted keys. -/
def assign (path : List String) (key : String) (value : Toml) : Origin → Entries → Option Entries :=
  update .key (fun origin entries =>
    if (path = [] ∨ origin = .dotted) ∧ (entries.lookup key).isNone then some (entries ++ [(key, value)])
    else none) path

/-- Opens a table by its own header. -/
def openTable (key : String) (entries : Entries) : Option Entries :=
  match entries.lookup key with
  | none => some (entries ++ [(key, .table .header [])])
  | some (.table .implied inner) => some (replace key (.table .header inner) entries)
  | some _ => none

/-- Opens the next table of an array of tables. -/
def openElement (key : String) (entries : Entries) : Option Entries :=
  match entries.lookup key with
  | none => some (entries ++ [(key, .tables [.table .header []])])
  | some (.tables items) => some (replace key (.tables (items ++ [.table .header []])) entries)
  | some _ => none

/-- One line of a document, its path and the last part of its key. -/
inductive Line where
  | assignment (path : List String) (key : String) (value : Toml)
  | tableHeader (path : List String) (key : String)
  | elementHeader (path : List String) (key : String)

/-- The document so far: its entries, and the path of the table that assignments go to. -/
structure Draft where
  root : Entries
  current : List String

/-- The document with one more line. -/
def Draft.add? (d : Draft) : Line → Option Draft
  | .assignment path key value =>
      (update .header (assign path key value) d.current .header d.root).map fun root =>
        { d with root }
  | .tableHeader path key =>
      (update .header (fun _ => openTable key) path .header d.root).map fun root =>
        ⟨root, path ++ [key]⟩
  | .elementHeader path key =>
      (update .header (fun _ => openElement key) path .header d.root).map fun root =>
        ⟨root, path ++ [key]⟩

/-- The entries of the document that the lines make up, if each of them is allowed where it stands. -/
def ofLines? (lines : List Line) : Option Entries :=
  (lines.foldlM Draft.add? ⟨[], []⟩).map Draft.root

end Toml
end CqlStatements
