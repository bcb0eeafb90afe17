import CqlStatements.Text

/-!
# What a program can read

A program reads files by their paths, and its input. A path leads to a file, whose text may or may not be
readable, or to a device, which is read like a file but is none, or to nothing that can be read, and then
reading fails for a reason. The input can be read only once: whoever reads it, by whatever path, leaves it
empty.

Files that are known in advance form a tree, in which each of them has an address: the names on the way to
it from the root. A path is walked part by part, from the root if it starts with a slash and else from the
working directory. An empty part and a dot stay where they are, two dots lead one directory up, and the
root is above itself. What goes wrong first decides: a name behind a missing one is not looked at.
-/
namespace CqlStatements

namespace Files

/-- Why a file cannot be read. -/
inductive Fault where
  | notFound
  | notDirectory
  | isDirectory
  | nameTooLong
  | notPermitted
  /-- The bytes of the file are not text. -/
  | notText
  | other (text : String)
deriving DecidableEq, Repr

def Fault.message : Fault → String
  | notFound => "No such file or directory (os error 2)"
  | notDirectory => "Not a directory (os error 20)"
  | isDirectory => "Is a directory (os error 21)"
  | nameTooLong => "File name too long (os error 36)"
  | notPermitted => "Permission denied (os error 13)"
  | notText => "stream did not contain valid UTF-8"
  | other text => text

inductive Device where
  /-- The device that is always empty. -/
  | null
  /-- The input of the program. -/
  | input
deriving DecidableEq, Repr

/-- What a path leads to. -/
inductive Entry where
  | file (content : Except Fault String)
  | device (device : Device)
  /-- Nothing that can be read, and why reading fails here. -/
  | absent (fault : Fault)

def Entry.isInput : Entry → Bool
  | device .input => true
  | _ => false

end Files

/-- Files by their paths, and the input. -/
structure Files where
  entry : String → Files.Entry
  /-- What is typed or piped in. -/
  input : Except Files.Fault String

namespace Files

/-- The text that reading an entry gives. -/
def text (files : Files) : Entry → Except Fault String
  | .file content => content
  | .device .null => .ok ""
  | .device .input => files.input
  | .absent fault => .error fault

def read (files : Files) (path : String) : Except Fault String := files.text (files.entry path)

/-- What is left once an entry has been read. -/
def after (files : Files) (entry : Entry) : Files :=
  if entry.isInput then { files with input := .ok "" } else files

/-- The names on the way from the root. -/
abbrev Address := List String

/-- What stands at an address. -/
inductive Node where
  | directory
  /-- Another name of the directory at `target`. -/
  | link (target : Address)
  /-- Something that no path leads on from. -/
  | leaf (entry : Entry)

abbrev Tree := List (Address × Node)

namespace Tree

/-- A directory also exists as far as something lies in it. -/
def node? (tree : Tree) (address : Address) : Option Node :=
  match tree.lookup address with
  | some node => some node
  | none =>
      if tree.any fun place => address.isPrefixOf place.1 then some .directory else none

/-- Whether a part of a path leads from a directory to itself. -/
def isStay (part : String) : Bool := part.isEmpty || part == "."

/-- The largest number of bytes in a name. -/
def nameLimit : Nat := 255

/-- The largest number of bytes in a path. -/
def pathLimit : Nat := 4095

/-- What the rest of a path leads to from a directory. -/
def walk (tree : Tree) (directory : Address) : List String → Entry
  | [] => .absent .isDirectory
  | part :: rest =>
      if isStay part then walk tree directory rest
      else if part = ".." then walk tree directory.dropLast rest
      else if nameLimit < part.utf8ByteSize then .absent .nameTooLong
      else
        match tree.node? (directory ++ [part]) with
        | none => .absent .notFound
        | some .directory => walk tree (directory ++ [part]) rest
        | some (.link target) => walk tree target rest
        | some (.leaf entry) => if rest.isEmpty then entry else .absent .notDirectory

/-- What a path leads to from a working directory. -/
def entry (tree : Tree) (workingDirectory : Address) (path : String) : Entry :=
  if path.isEmpty then .absent .notFound
  else if pathLimit < path.utf8ByteSize then .absent .nameTooLong
  else if path.toList.head? = some '/' then walk tree [] (Text.split '/' path)
  else walk tree workingDirectory (Text.split '/' path)

/-- The names that a path gives. -/
def names (path : String) : Address := (Text.split '/' path).filter fun part => !isStay part

/-- Files below a directory, each with its path from there and its text. -/
def ofTexts (directory : Address) (texts : List (String × String)) : Tree :=
  texts.map fun (path, text) => (directory ++ names path, .leaf (.file (.ok text)))

end Tree

/-- A directory that no path can name, since an empty part of a path names nothing; it is reached as the
working directory and as what two dots lead back to. -/
def workingDirectory : Address := ["tmp", ""]

/-- The files of the working directory, each with its path from there and its text, and an input. -/
def ofList (files : List (String × String)) (input : String) : Files :=
  let tree := Tree.ofTexts workingDirectory files ++ [(workingDirectory, .directory)]
  ⟨tree.entry workingDirectory, .ok input⟩

end Files
end CqlStatements
