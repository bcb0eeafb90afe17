import CqlStatements.Toml.Number
import CqlStatements.Toml.Text

/-!
# Reading TOML

A text is read into lines, and the lines make up the document. Arrays and tables in braces may be nested
79 levels deep, and a key may have 79 parts. Arrays may go over several lines and end with a comma; tables
in braces may do neither.

Values are nested, so the recursion runs on a number of steps. Each step reads at least one character or
goes from a list to its next value, and twice the length of the text is always enough.
-/
namespace CqlStatements.Toml

/-- How many parts a key may have, and how many levels of arrays and tables a value. -/
def maxDepth : Nat := 79

mutual

def readValue? : Nat → Nat → List Char → Option (Toml × List Char)
  | 0, _, _ => none
  | steps + 1, room, cs =>
      match cs with
      | [] => none
      | c :: rest =>
          if c = '"' ∨ c = '\x27' then (readString? cs).map fun (s, rest) => (.string s, rest)
          else if c = '[' then
            match room with
            | 0 => none
            | room + 1 =>
                (readItems? steps room rest).map fun (items, rest) => (.array items, rest)
          else if c = '\x7b' then
            match room with
            | 0 => none
            | room + 1 =>
                match skipBlanks rest with
                | '\x7d' :: rest => some (.table .inline [], rest)
                | rest =>
                    (readPairs? steps room [] rest).map fun (entries, rest) =>
                      (.table .inline entries, rest)
          else if c = 't' then (afterWord? "true" cs).map fun rest => (.boolean true, rest)
          else if c = 'f' then (afterWord? "false" cs).map fun rest => (.boolean false, rest)
          else readNumber? cs

/-- The items of an array up to its closing bracket. -/
def readItems? : Nat → Nat → List Char → Option (List Toml × List Char)
  | 0, _, _ => none
  | steps + 1, room, cs =>
      match skipLines false cs with
      | ']' :: rest => some ([], rest)
      | cs => do
          let (item, rest) ← readValue? steps room cs
          match skipLines false rest with
          | ',' :: rest => do
              let (items, rest) ← readItems? steps room rest
              some (item :: items, rest)
          | ']' :: rest => some ([item], rest)
          | _ => none

/-- The entries of a table in braces from one of its keys up to its closing brace, added to those that
are there. -/
def readPairs? : Nat → Nat → Entries → List Char → Option (Entries × List Char)
  | 0, _, _, _ => none
  | steps + 1, room, entries, cs => do
      let ((path, key), rest) ← readKey? maxDepth cs
      let rest ← afterChar? '=' rest
      let (value, rest) ← readValue? steps room (skipBlanks rest)
      let entries ← assign path key value .inline entries
      match skipBlanks rest with
      | ',' :: rest => readPairs? steps room entries rest
      | '\x7d' :: rest => some (entries, rest)
      | _ => none

end

/-- Reads one line of a document that is neither blank nor a comment. -/
def readLine? (cs : List Char) : Option (Line × List Char) :=
  match cs with
  | '[' :: '[' :: cs => do
      let ((path, key), rest) ← readKey? maxDepth cs
      let rest ← (afterChar? ']' rest).bind (afterChar? ']')
      let rest ← afterLine? rest
      some (.elementHeader path key, rest)
  | '[' :: cs => do
      let ((path, key), rest) ← readKey? maxDepth cs
      let rest ← (afterChar? ']' rest).bind afterLine?
      some (.tableHeader path key, rest)
  | cs => do
      let ((path, key), rest) ← readKey? maxDepth cs
      let rest ← afterChar? '=' rest
      let (value, rest) ← readValue? (2 * rest.length + 2) maxDepth (skipBlanks rest)
      let rest ← afterLine? rest
      some (.assignment path key value, rest)

/-- The lines of a document; every step reads one of them. -/
def readLines? : Nat → List Char → Option (List Line)
  | 0, _ => none
  | steps + 1, cs =>
      match skipLines false cs with
      | [] => some []
      | cs => do
          let (line, rest) ← readLine? cs
          let lines ← readLines? steps rest
          some (line :: lines)

/-- The text without a byte order mark at its front. -/
def dropMark : List Char → List Char
  | '\ufeff' :: cs => cs
  | cs => cs

/-- The entries of the document that a text holds. -/
def ofText? (text : String) : Option Entries := do
  let cs := dropMark text.toList
  let lines ← readLines? (cs.length + 1) cs
  ofLines? lines

end CqlStatements.Toml
