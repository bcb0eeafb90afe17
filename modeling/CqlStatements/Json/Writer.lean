import CqlStatements.Json

/-!
# Writing JSON

Two layouts of one tree: compact, without a blank, and indented by two spaces a level. Both are meant
for whole trees; of what is broken or has no text nothing is written. In strings only the quote, the
backslash and the control characters of ASCII below the space are escaped.
-/
namespace CqlStatements.Json

/-- The escape of a control character by its number. -/
def unicodeEscape (n : Nat) : List Char :=
  ['\\', 'u', '0', '0', (n / 16).digitChar, (n % 16).digitChar]

def escapeChar (c : Char) : List Char :=
  if c = '"' then ['\\', '"']
  else if c = '\\' then ['\\', '\\']
  else if c = '\x08' then ['\\', 'b']
  else if c = '\x0c' then ['\\', 'f']
  else if c = '\n' then ['\\', 'n']
  else if c = '\r' then ['\\', 'r']
  else if c = '\t' then ['\\', 't']
  else if c.toNat < 0x20 then unicodeEscape c.toNat
  else [c]

def quoteChars (s : String) : List Char :=
  '"' :: s.toList.flatMap escapeChar ++ ['"']

def keyChars : Key → List Char
  | .text s => quoteChars s
  | .unpaired | .absent => quoteChars ""

def wordChars (b : Bool) : List Char :=
  if b then "true".toList else "false".toList

mutual

def compactChars : Json → List Char
  | .null => "null".toList
  | .bool b => wordChars b
  | .number n => n.chars
  | .string s => quoteChars s
  | .unpaired | .broken => []
  | .array items => '[' :: compactItems items ++ [']']
  | .object members => '\x7b' :: compactMembers members ++ ['\x7d']

def compactItems : List Json → List Char
  | [] => []
  | [item] => compactChars item
  | item :: items => compactChars item ++ ',' :: compactItems items

def compactMembers : List (Key × Json) → List Char
  | [] => []
  | [(key, value)] => keyChars key ++ ':' :: compactChars value
  | (key, value) :: members =>
      keyChars key ++ ':' :: compactChars value ++ ',' :: compactMembers members

end

def compact (j : Json) : String :=
  String.ofList j.compactChars

/-- A new line at a level of nesting. -/
def newLine (level : Nat) : List Char :=
  '\n' :: List.replicate (2 * level) ' '

mutual

def indentedChars (level : Nat) : Json → List Char
  | .null => "null".toList
  | .bool b => wordChars b
  | .number n => n.chars
  | .string s => quoteChars s
  | .unpaired | .broken => []
  | .array [] => "[]".toList
  | .array (item :: items) =>
      '[' :: newLine (level + 1) ++ indentedItems (level + 1) (item :: items) ++ newLine level ++ [']']
  | .object [] => ['\x7b', '\x7d']
  | .object (member :: members) =>
      '\x7b' :: newLine (level + 1) ++ indentedMembers (level + 1) (member :: members) ++
        newLine level ++ ['\x7d']

def indentedItems (level : Nat) : List Json → List Char
  | [] => []
  | [item] => indentedChars level item
  | item :: items => indentedChars level item ++ ',' :: newLine level ++ indentedItems level items

def indentedMembers (level : Nat) : List (Key × Json) → List Char
  | [] => []
  | [(key, value)] => keyChars key ++ ": ".toList ++ indentedChars level value
  | (key, value) :: members =>
      keyChars key ++ ": ".toList ++ indentedChars level value ++ ',' :: newLine level ++
        indentedMembers level members

end

def indented (j : Json) : String :=
  String.ofList (j.indentedChars 0)

end CqlStatements.Json
