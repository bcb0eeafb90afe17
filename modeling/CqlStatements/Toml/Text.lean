import CqlStatements.Numeral

/-!
# Strings and blanks in TOML text

Strings come in four forms: with or without escapes, on one line or on several. A string on several lines
starts behind a line break that follows its opening quotes, and all its line breaks count as line feeds.
Up to two quotes may stand in front of its closing ones. Behind a backslash at the end of a line all blanks
and line breaks are left out.
-/
namespace CqlStatements.Toml

def isBlank (c : Char) : Bool := c == ' ' || c == '\t'

def skipBlanks (cs : List Char) : List Char := cs.dropWhile isBlank

/-- Whether a character may stand in a comment or unescaped in a string: no control character but the
tab. -/
def isPlain (c : Char) : Bool := c == '\t' || (0x20 ≤ c.toNat && c.toNat != 0x7F)

/-- The text behind a line break. -/
def afterBreak? : List Char → Option (List Char)
  | '\n' :: cs => some cs
  | '\r' :: '\n' :: cs => some cs
  | _ => none

/-- The text behind blanks, line breaks and comments; `comment` tells whether it starts in a comment. -/
def skipLines (comment : Bool) : List Char → List Char
  | [] => []
  | c :: cs =>
      if c = '\n' then skipLines false cs
      else if c = '\r' then
        match cs with
        | '\n' :: cs => skipLines false cs
        | _ => c :: cs
      else if comment then if isPlain c then skipLines true cs else c :: cs
      else if isBlank c then skipLines false cs
      else if c = '#' then skipLines true cs
      else c :: cs

/-- The text behind the end of a line, which may hold blanks and a comment. -/
def afterLine? (cs : List Char) : Option (List Char) :=
  let rest :=
    match skipBlanks cs with
    | '#' :: cs => cs.dropWhile isPlain
    | cs => cs
  match rest with
  | [] => some []
  | rest => afterBreak? rest

/-- The character that an escape of one letter stands for. -/
def escaped? (c : Char) : Option Char :=
  if c = '"' ∨ c = '\\' then some c
  else if c = 'b' then some '\x08'
  else if c = 't' then some '\t'
  else if c = 'n' then some '\n'
  else if c = 'f' then some '\x0c'
  else if c = 'r' then some '\r'
  else none

/-- The character with a number, if there is one. -/
def scalarValue? (n : Nat) : Option Char :=
  if n < 0xD800 ∨ 0xDFFF < n ∧ n < 0x110000 then some (Char.ofNat n) else none

/-- The end of a string on several lines, seen from a quote: up to two more quotes, then three. Nothing
if fewer than three quotes stand here. -/
def closing? (quote : Char) (cs : List Char) : Option (List Char × List Char) :=
  let run := (cs.takeWhile (· == quote)).length
  if run < 3 then none
  else some (List.replicate (min (run - 3) 2) quote, cs.drop (min run 5))

/-- The characters of a string with escapes, up to its end, and the text behind it. `lines` tells
whether it may have several lines, and `joining` whether a line was left out just before. -/
def readBasic (lines joining : Bool) : List Char → Option (List Char × List Char)
  | [] => none
  | c :: cs =>
      if joining && isBlank c then readBasic lines true cs
      else if c = '\n' then
        if joining then readBasic lines true cs
        else if lines then (readBasic lines false cs).map fun (s, rest) => ('\n' :: s, rest)
        else none
      else if c = '\r' then
        match cs with
        | '\n' :: cs =>
            if joining then readBasic lines true cs
            else if lines then (readBasic lines false cs).map fun (s, rest) => ('\n' :: s, rest)
            else none
        | _ => none
      else if c = '"' then
        if lines then
          match closing? '"' (c :: cs) with
          | some found => some found
          | none => (readBasic lines false cs).map fun (s, rest) => (c :: s, rest)
        else some ([], cs)
      else if c = '\\' then
        if lines && (afterBreak? (skipBlanks cs)).isSome then readBasic lines true cs
        else
          match cs with
          | [] => none
          | e :: cs =>
              if e = 'u' then
                match cs with
                | h₁ :: h₂ :: h₃ :: h₄ :: cs => do
                    let n ← Integer.ofHex? [h₁, h₂, h₃, h₄]
                    let c ← scalarValue? n
                    let (s, rest) ← readBasic lines false cs
                    some (c :: s, rest)
                | _ => none
              else if e = 'U' then
                match cs with
                | h₁ :: h₂ :: h₃ :: h₄ :: h₅ :: h₆ :: h₇ :: h₈ :: cs => do
                    let n ← Integer.ofHex? [h₁, h₂, h₃, h₄, h₅, h₆, h₇, h₈]
                    let c ← scalarValue? n
                    let (s, rest) ← readBasic lines false cs
                    some (c :: s, rest)
                | _ => none
              else do
                let c ← escaped? e
                let (s, rest) ← readBasic lines false cs
                some (c :: s, rest)
      else if isPlain c then (readBasic lines false cs).map fun (s, rest) => (c :: s, rest)
      else none

/-- The characters of a string without escapes, up to its end, and the text behind it. -/
def readLiteral (lines : Bool) : List Char → Option (List Char × List Char)
  | [] => none
  | c :: cs =>
      if c = '\n' then
        if lines then (readLiteral lines cs).map fun (s, rest) => ('\n' :: s, rest) else none
      else if c = '\r' then
        match cs with
        | '\n' :: cs =>
            if lines then (readLiteral lines cs).map fun (s, rest) => ('\n' :: s, rest) else none
        | _ => none
      else if c = '\x27' then
        if lines then
          match closing? '\x27' (c :: cs) with
          | some found => some found
          | none => (readLiteral lines cs).map fun (s, rest) => (c :: s, rest)
        else some ([], cs)
      else if isPlain c then (readLiteral lines cs).map fun (s, rest) => (c :: s, rest)
      else none

/-- The text without a line break at its front. -/
def dropBreak (cs : List Char) : List Char := (afterBreak? cs).getD cs

/-- Reads a string in any of the four forms. -/
def readString? : List Char → Option (String × List Char)
  | '"' :: '"' :: '"' :: cs => (readBasic true false (dropBreak cs)).map ofChars
  | '"' :: cs => (readBasic false false cs).map ofChars
  | '\x27' :: '\x27' :: '\x27' :: cs => (readLiteral true (dropBreak cs)).map ofChars
  | '\x27' :: cs => (readLiteral false cs).map ofChars
  | _ => none
where
  ofChars (found : List Char × List Char) : String × List Char :=
    (String.ofList found.1, found.2)

def isBareKeyChar (c : Char) : Bool := c.isAlphanum || c == '_' || c == '-'

/-- One part of a key: bare, or a string on one line. -/
def readKeyPart? : List Char → Option (String × List Char)
  | [] => none
  | c :: cs =>
      if c = '"' then (readBasic false false cs).map fun (s, rest) => (String.ofList s, rest)
      else if c = '\x27' then (readLiteral false cs).map fun (s, rest) => (String.ofList s, rest)
      else if isBareKeyChar c then
        some (String.ofList (c :: cs.takeWhile isBareKeyChar), cs.dropWhile isBareKeyChar)
      else none

/-- A key of at most `parts` parts with dots between them, and the text behind it and its blanks: the
parts before the last one, and the last one. -/
def readKey? : Nat → List Char → Option ((List String × String) × List Char)
  | 0, _ => none
  | parts + 1, cs => do
      let (part, rest) ← readKeyPart? (skipBlanks cs)
      match skipBlanks rest with
      | '.' :: rest => do
          let ((path, key), rest) ← readKey? parts rest
          some ((part :: path, key), rest)
      | rest => some (([], part), rest)

end CqlStatements.Toml
