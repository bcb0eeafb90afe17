import CqlStatements.Binary64.Shortest
import CqlStatements.Toml

/-!
# Writing TOML

A string takes the first form in which it can stand: with escapes on one line if there is nothing to
escape but tabs, without escapes on one line, with escapes on several lines if there is nothing to escape
but tabs, without escapes on several lines. A string for which none of them will do is written with
escapes, on several lines if it has a line break. An array of two or more items has one item a line.
-/
namespace CqlStatements.Toml

/-- The length of the longest run of a character. -/
def longestRun (c : Char) (cs : List Char) : Nat :=
  (cs.foldl (fun (current, longest) next =>
    let current := if next = c then current + 1 else 0
    (current, max longest current)) (0, 0)).2

/-- A control character other than a tab or a line feed. -/
def isControl (c : Char) : Bool :=
  (c.toNat < 0x20 && c != '\t' && c != '\n') || c.toNat == 0x7F

/-- The escape of a character by its number. -/
def unicodeEscape (n : Nat) : List Char :=
  ['\\', 'u', '0', '0', (n / 16).digitChar.toUpper, (n % 16).digitChar.toUpper]

/-- The characters of a string with escapes. A line feed is kept if `lines` is set. Quotes are kept as
long as no more than `allowed` of them follow one another; `run` counts those just written. -/
def escapeChars (lines : Bool) (allowed run : Nat) : List Char → List Char
  | [] => []
  | c :: cs =>
      if c = '"' then
        if run < allowed then c :: escapeChars lines allowed (run + 1) cs
        else '\\' :: '"' :: escapeChars lines allowed 0 cs
      else
        let written :=
          if c = '\x08' then ['\\', 'b']
          else if c = '\t' then ['\\', 't']
          else if c = '\n' then if lines then [c] else ['\\', 'n']
          else if c = '\x0c' then ['\\', 'f']
          else if c = '\r' then ['\\', 'r']
          else if c = '\\' then ['\\', '\\']
          else if isControl c then unicodeEscape c.toNat
          else [c]
        written ++ escapeChars lines allowed 0 cs

/-- A string on several lines between its quotes, which a line break follows if the string has one. -/
def betweenTriple (quote : Char) (s body : List Char) : List Char :=
  List.replicate 3 quote ++ (if s.contains '\n' then ['\n'] else []) ++ body ++
    List.replicate 3 quote

def basicLine (s : List Char) : List Char := '"' :: escapeChars false 0 0 s ++ ['"']

def basicLines (s : List Char) : List Char := betweenTriple '"' s (escapeChars true 2 0 s)

def literalLine (s : List Char) : List Char := '\x27' :: s ++ ['\x27']

def literalLines (s : List Char) : List Char := betweenTriple '\x27' s s

def stringChars (text : String) : List Char :=
  let s := text.toList
  let control := s.any isControl
  let line := !s.contains '\n'
  let backslash := s.contains '\\'
  let doubles := longestRun '"' s
  let singles := longestRun '\x27' s
  if !control && !backslash && doubles = 0 && line then basicLine s
  else if !control && singles = 0 && line then literalLine s
  else if !control && !backslash && doubles ≤ 2 then basicLines s
  else if !control && singles ≤ 2 then literalLines s
  else if line then basicLine s
  else basicLines s

/-- A float always has a point, unless it is not finite. -/
def floatChars (x : Binary64) : List Char :=
  if x.isNaN then "nan".toList
  else if x.isFinite then x.positional.withPoint.chars
  else x.plain

mutual

/-- The text of a value. Tables and moments are not written. -/
def valueChars : Toml → List Char
  | .string s => stringChars s
  | .integer n => Integer.chars n.toInt
  | .float x => floatChars x
  | .boolean b => if b then "true".toList else "false".toList
  | .array [] => "[]".toList
  | .array [item] => '[' :: valueChars item ++ [']']
  | .array items => '[' :: '\n' :: itemChars items ++ [']']
  | .moment | .table _ _ | .tables _ => []

/-- Items on lines of their own, each with a comma behind it. -/
def itemChars : List Toml → List Char
  | [] => []
  | item :: items => "    ".toList ++ valueChars item ++ ',' :: '\n' :: itemChars items

end

def entryChars (entry : String × Toml) : List Char :=
  entry.1.toList ++ " = ".toList ++ valueChars entry.2 ++ ['\n']

/-- The text of entries with bare keys, one a line. -/
def documentText (entries : Entries) : String :=
  String.ofList (entries.flatMap entryChars)

end CqlStatements.Toml
