import CqlStatements.Json

/-!
# Reading JSON

The reader follows the grammar strictly: no leading zeros, no comma behind the last item, no raw control
characters in strings. It always returns a tree. Beside the tree it returns what follows in the text, or
nothing if the text is broken in the tree.

Values are nested, so the recursion runs on a number of steps. Each step reads at least one character or
goes from a list to its next value, and twice the length of the text is always enough.
-/
namespace CqlStatements.Json

def isBlank (c : Char) : Bool := c == ' ' || c == '\t' || c == '\n' || c == '\r'

def skipBlanks (cs : List Char) : List Char := cs.dropWhile isBlank

/-- A piece of a string: a character, or half of a surrogate pair written as an escape. -/
inductive Piece where
  | char (c : Char)
  | half (unit : Nat)
deriving DecidableEq, Repr

def isHighHalf (unit : Nat) : Bool := 0xD800 ≤ unit && unit < 0xDC00

def isLowHalf (unit : Nat) : Bool := 0xDC00 ≤ unit && unit < 0xE000

def pieceOfUnit (unit : Nat) : Piece :=
  if isHighHalf unit || isLowHalf unit then .half unit else .char (Char.ofNat unit)

/-- The character behind a backslash that stands for one character by itself. -/
def escaped? (c : Char) : Option Char :=
  if c = '"' ∨ c = '\\' ∨ c = '/' then some c
  else if c = 'b' then some '\x08'
  else if c = 'f' then some '\x0c'
  else if c = 'n' then some '\n'
  else if c = 'r' then some '\r'
  else if c = 't' then some '\t'
  else none

/-- The pieces of a string up to its closing quote, and the text behind it. -/
def readPieces : List Char → Option (List Piece × List Char)
  | [] => none
  | c :: cs =>
      if c = '"' then some ([], cs)
      else if c = '\\' then
        match cs with
        | [] => none
        | e :: cs =>
            if e = 'u' then
              match cs with
              | h₁ :: h₂ :: h₃ :: h₄ :: cs => do
                  let unit ← Integer.ofHex? [h₁, h₂, h₃, h₄]
                  let (pieces, rest) ← readPieces cs
                  some (pieceOfUnit unit :: pieces, rest)
              | _ => none
            else do
              let c ← escaped? e
              let (pieces, rest) ← readPieces cs
              some (.char c :: pieces, rest)
      else if c.toNat < 0x20 then none
      else do
        let (pieces, rest) ← readPieces cs
        some (.char c :: pieces, rest)

/-- The character of a surrogate pair. -/
def pairChar (high low : Nat) : Char :=
  Char.ofNat (0x10000 + (high - 0xD800) * 0x400 + (low - 0xDC00))

/-- The characters of a string, if each half is part of a pair. -/
def joinPieces? : List Piece → Option (List Char)
  | [] => some []
  | .char c :: pieces => (joinPieces? pieces).map (c :: ·)
  | .half high :: .half low :: pieces =>
      if isHighHalf high && isLowHalf low then
        (joinPieces? pieces).map (pairChar high low :: ·)
      else none
  | .half _ :: _ => none

/-- Reads a string behind its opening quote; nothing in its place if it has an unpaired half. -/
def readText (cs : List Char) : Option (Option String × List Char) :=
  (readPieces cs).map fun (pieces, rest) => ((joinPieces? pieces).map String.ofList, rest)

/-- A whole part: no leading zero unless it is zero itself. -/
def readWhole (cs : List Char) : Option (Nat × List Char) :=
  match Numeral.takeDigits cs with
  | ([], _) => none
  | (first :: digits, rest) =>
      if first.val = 0 ∧ digits ≠ [] then none
      else some (Numeral.ofDigits (first :: digits), rest)

/-- The digits behind a point, if there is a point. -/
def readFraction : List Char → Option (List (Fin 10) × List Char)
  | '.' :: cs =>
      match Numeral.takeDigits cs with
      | ([], _) => none
      | found => some found
  | cs => some ([], cs)

def readNumeral (cs : List Char) : Option (Numeral × List Char) := do
  let (negative, cs) :=
    match cs with
    | '-' :: cs => (true, cs)
    | cs => (false, cs)
  let (whole, cs) ← readWhole cs
  let (fraction, cs) ← readFraction cs
  let (exponent, cs) ← Numeral.readExponent cs
  some (⟨negative, whole, fraction, exponent⟩, cs)

/-- A value that is one of the words of the grammar. -/
def readWord (word : String) (value : Json) (cs : List Char) : Json × Option (List Char) :=
  if word.toList.isPrefixOf cs then (value, some (cs.drop word.length)) else (.broken, none)

mutual

def readValue : Nat → List Char → Json × Option (List Char)
  | 0, _ => (.broken, none)
  | steps + 1, cs =>
      match skipBlanks cs with
      | [] => (.broken, none)
      | c :: cs =>
          if c = '"' then
            match readText cs with
            | none => (.broken, none)
            | some (none, rest) => (.unpaired, some rest)
            | some (some s, rest) => (.string s, some rest)
          else if c = '[' then
            match skipBlanks cs with
            | ']' :: rest => (.array [], some rest)
            | _ =>
                let (items, rest) := readItems steps cs
                (.array items, rest)
          else if c = '\x7b' then
            match skipBlanks cs with
            | '\x7d' :: rest => (.object [], some rest)
            | _ =>
                let (members, rest) := readMembers steps cs
                (.object members, rest)
          else if c = 'n' then readWord "null" .null (c :: cs)
          else if c = 't' then readWord "true" (.bool true) (c :: cs)
          else if c = 'f' then readWord "false" (.bool false) (c :: cs)
          else
            match readNumeral (c :: cs) with
            | none => (.broken, none)
            | some (n, rest) => (.number n, some rest)

/-- The items of an array from one of its values on. -/
def readItems : Nat → List Char → List Json × Option (List Char)
  | 0, _ => ([.broken], none)
  | steps + 1, cs =>
      match readValue steps cs with
      | (value, none) => ([value], none)
      | (value, some rest) =>
          match skipBlanks rest with
          | ',' :: rest =>
              let (items, rest) := readItems steps rest
              (value :: items, rest)
          | ']' :: rest => ([value], some rest)
          | _ => ([value, .broken], none)

/-- The members of an object from one of its keys on. -/
def readMembers : Nat → List Char → List (Key × Json) × Option (List Char)
  | 0, _ => ([(.absent, .broken)], none)
  | steps + 1, cs =>
      match skipBlanks cs with
      | '"' :: rest =>
          match readText rest with
          | none => ([(.absent, .broken)], none)
          | some (text, rest) =>
              let key := text.elim Key.unpaired Key.text
              match skipBlanks rest with
              | ':' :: rest =>
                  match readValue steps rest with
                  | (value, none) => ([(key, value)], none)
                  | (value, some rest) =>
                      match skipBlanks rest with
                      | ',' :: rest =>
                          let (members, rest) := readMembers steps rest
                          ((key, value) :: members, rest)
                      | '\x7d' :: rest => ([(key, value)], some rest)
                      | _ => ([(key, value), (.absent, .broken)], none)
              | _ => ([(key, .broken)], none)
      | _ => ([(.absent, .broken)], none)

end

/-- The tree of a text, and whether nothing but blanks follows the value that it holds. -/
def ofText (text : String) : Json × Bool :=
  match readValue (2 * text.length + 2) text.toList with
  | (tree, some rest) => (tree, (skipBlanks rest).isEmpty)
  | (tree, none) => (tree, false)

end CqlStatements.Json
