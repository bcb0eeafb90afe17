/-!
# Taking table qualifiers off column names

A query names its table behind the first word that starts with `from` or `update` and is followed by
spacing. If a column behind the first `where` or `set` is written `table.column`, every such column in
the query loses its qualifier, including those in front of the clause and rows of qualifiers such as
`table.table.column`. Words are made of ASCII letters, digits and underscores; a table name may hold
dots besides, and only its last part is a qualifier.

A qualifier is compared with the text letter by letter without regard to case, as far as the shorter of
the two goes, but it is cut off by its length in bytes. The Kelvin sign is a letter k of three bytes.
Where one is compared, the cut can fall inside a character, and then there is no answer at all.
-/
namespace CqlStatements.Qualifier

inductive StripError where
  | tableNotFound (query : String)
  /-- The bytes of a qualifier end inside a character of the query. -/
  | insideCharacter
deriving DecidableEq, Repr

def StripError.message : StripError → String
  | tableNotFound query => "Unable to find table name in the query: " ++ query
  | insideCharacter => "a table name ends inside a character of the query"

/-- What comes of looking for a name at the front of a text. -/
inductive Match where
  | rest (cs : List Char)
  | mismatch
  | insideCharacter
deriving DecidableEq, Repr

def isWordChar (c : Char) : Bool := c.isAlphanum || c == '_'

def isNameChar (c : Char) : Bool := isWordChar c || c == '.'

def isSpacing (c : Char) : Bool := c == ' ' || c == '\t' || c == '\r' || c == '\n'

def kelvinSign : Char := '\u212a'

/-- Whether a character is a letter of a name under lower-casing. Names are ASCII, and the Kelvin sign
is the one other character whose lower case is an ASCII letter. -/
def sameLetter (letter c : Char) : Bool :=
  c.toLower == letter.toLower || (c == kelvinSign && letter.toLower == 'k')

/-- Whether a name and a text have the same letters as far as the shorter of them goes. -/
def agree : List Char → List Char → Bool
  | letter :: name, c :: cs => sameLetter letter c && agree name cs
  | _, _ => true

def byteLength : List Char → Nat
  | [] => 0
  | c :: cs => c.utf8Size + byteLength cs

/-- The text behind its first `n` bytes. The text may be too short, and the bytes may end inside a
character. -/
def dropBytes : List Char → Nat → Match
  | cs, 0 => .rest cs
  | [], _ + 1 => .mismatch
  | c :: cs, n + 1 =>
      if n + 1 < c.utf8Size then .insideCharacter else dropBytes cs (n + 1 - c.utf8Size)

def matchName (name cs : List Char) : Match :=
  if agree name cs then dropBytes cs (byteLength name) else .mismatch

/-- Looks for a qualified column; what is left begins with the column. -/
def qualifiedColumn (table cs : List Char) : Match :=
  match matchName table cs with
  | .rest ('.' :: c :: rest) => if isWordChar c then .rest (c :: rest) else .mismatch
  | .rest _ => .mismatch
  | .mismatch => .mismatch
  | .insideCharacter => .insideCharacter

/-- The text behind a keyword, which is given in lower case. -/
def afterKeyword? : List Char → List Char → Option (List Char)
  | [], cs => some cs
  | _ :: _, [] => none
  | letter :: word, c :: cs => if c.toLower == letter then afterKeyword? word cs else none

/-- The text behind spacing, of which there must be some. -/
def afterSpacing? : List Char → Option (List Char)
  | [] => none
  | c :: cs => if isSpacing c then some (cs.dropWhile isSpacing) else none

/-- The text behind one of two keywords and spacing. -/
def afterClause? (first second : String) (cs : List Char) : Option (List Char) :=
  ((afterKeyword? first.toList cs).or (afterKeyword? second.toList cs)).bind afterSpacing?

/-- The table name of a clause that begins the text. -/
def tableName? (cs : List Char) : Option (List Char) :=
  match (afterClause? "from" "update" cs).map fun rest => rest.takeWhile isNameChar with
  | some (c :: name) => some (c :: name)
  | _ => none

/-- Whether a word can start behind a character. -/
def boundary (previous : Option Char) : Bool := !previous.any isWordChar

/-- The rests of a text at whose front a word starts, given the character before the text. -/
def wordStarts : Option Char → List Char → List (List Char)
  | _, [] => []
  | previous, c :: cs =>
      if isWordChar c && boundary previous then (c :: cs) :: wordStarts (some c) cs
      else wordStarts (some c) cs

def findTableName? (query : List Char) : Option (List Char) :=
  (wordStarts none query).findSome? tableName?

/-- The part of a name behind its last dot. -/
def lastPart (name : List Char) : List Char :=
  (name.reverse.takeWhile (· != '.')).reverse

/-- The text behind the first word that starts with `where` or `set` and is followed by spacing. -/
def clauseBody? (query : List Char) : Option (List Char) :=
  (wordStarts none query).findSome? (afterClause? "where" "set")

/-- Whether one of the texts begins with a qualified column, looked for in order. -/
def anyQualified (table : List Char) : List (List Char) → Except StripError Bool
  | [] => .ok false
  | cs :: rest =>
      match qualifiedColumn table cs with
      | .rest _ => .ok true
      | .mismatch => anyQualified table rest
      | .insideCharacter => .error .insideCharacter

/-- Whether a qualified column stands behind the first `where` or `set`. The clause begins behind
spacing, so its own word starts are those of the query that lie in it. -/
def qualifiedInClause (table query : List Char) : Except StripError Bool :=
  match clauseBody? query with
  | none => .ok false
  | some body => anyQualified table (wordStarts none body)

theorem length_of_dropBytes {cs rest : List Char} {n : Nat} (h : dropBytes cs n = .rest rest) :
    rest.length ≤ cs.length := by
  fun_induction dropBytes cs n with
  | case1 => simp_all
  | case2 => simp at h
  | case3 => simp at h
  | case4 c cs n _ ih => exact Nat.le_succ_of_le (ih h)

theorem length_of_matchName {name cs rest : List Char} (h : matchName name cs = .rest rest) :
    rest.length ≤ cs.length := by
  unfold matchName at h
  split at h
  · exact length_of_dropBytes h
  · simp at h

/-- A qualified column leaves less text than there was. -/
theorem length_of_qualifiedColumn {table cs rest : List Char}
    (h : qualifiedColumn table cs = .rest rest) : rest.length < cs.length := by
  unfold qualifiedColumn at h
  split at h
  · rename_i c tail found
    split at h
    · cases h
      have := length_of_matchName found
      simp only [List.length_cons] at this ⊢
      omega
    · simp at h
  all_goals simp at h

/-- The text without its qualifiers, given the character that was kept last. A qualifier is not kept,
so another one right behind it is seen as well. -/
def stripAll (table : List Char) (previous : Option Char) (query : List Char) :
    Except StripError (List Char) :=
  match query with
  | [] => .ok []
  | c :: cs =>
      if boundary previous then
        match _h : qualifiedColumn table (c :: cs) with
        | .rest rest => stripAll table previous rest
        | .mismatch => (c :: ·) <$> stripAll table (some c) cs
        | .insideCharacter => .error .insideCharacter
      else (c :: ·) <$> stripAll table (some c) cs
termination_by query.length
decreasing_by
  · exact length_of_qualifiedColumn _h
  · simp
  · simp

def stripChars (query : List Char) : Except StripError (List Char) :=
  match findTableName? query with
  | none => .error (.tableNotFound (String.ofList query))
  | some name =>
      if (lastPart name).isEmpty then .ok query
      else do
        if ← qualifiedInClause (lastPart name) query then stripAll (lastPart name) none query
        else .ok query

/-- The query without qualifiers on its columns, if it qualifies one behind `where` or `set`. -/
def strip (query : String) : Except StripError String :=
  String.ofList <$> stripChars query.toList

end CqlStatements.Qualifier
