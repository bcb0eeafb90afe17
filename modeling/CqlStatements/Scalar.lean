import CqlStatements.Json.Decode
import CqlStatements.Json.Writer

/-!
# Scalar values

A scalar takes the place of a marker in a statement or stands in a collection literal. Its literal is
the text that is put there. Strings are quoted and nothing in them is escaped, so a literal is only as
safe as the string it is made of.

A value typed on a command line has no quotes to tell its kind. It is an integer if it is one in full,
otherwise a number if it is one in loose notation, otherwise one of the words `true`, `false` and
`null`, and in all other cases a string. An integer outside 64 bits is therefore a float.

In JSON a scalar is the plain value of its kind. There, too, an integer that does not fit into 64 bits with
a sign is a float.
-/
namespace CqlStatements

inductive Scalar where
  | null
  | bool (b : Bool)
  | int (n : Int64)
  | float (x : Binary64)
  | string (s : String)
deriving DecidableEq, Repr

namespace Scalar

def isString : Scalar → Bool
  | .string _ => true
  | _ => false

def literalChars : Scalar → List Char
  | .null => "null".toList
  | .bool true => "true".toList
  | .bool false => "false".toList
  | .int n => Integer.chars n.toInt
  | .float x => x.plain
  | .string s => '\x27' :: s.toList ++ ['\x27']

def literal (x : Scalar) : String :=
  String.ofList x.literalChars

@[simp] theorem toList_literal (x : Scalar) : x.literal.toList = x.literalChars := by
  simp [literal]

/-- Reads an optional sign and decimal digits that fill the whole text and fit into 64 bits. -/
def looseInt? (s : String) : Option Int64 :=
  let (negative, cs) := Binary64.takeSign s.toList
  match Numeral.takeDigits cs with
  | ([], _) => none
  | (digits, []) =>
      let n : Int := Numeral.ofDigits digits
      Integer.word? (if negative then -n else n)
  | _ => none

def ofLoose (s : String) : Scalar :=
  match looseInt? s with
  | some n => .int n
  | none =>
      match Binary64.ofLoose? s with
      | some x => .float x
      | none =>
          if s = "true" then .bool true
          else if s = "false" then .bool false
          else if s = "null" then .null
          else .string s

def toJson : Scalar → Json
  | .null => .null
  | .bool b => .bool b
  | .int n => Json.ofInt n.toInt
  | .float x => Json.ofFloat x
  | .string s => .string s

/-- The scalar that an integer of JSON stands for. -/
def ofInteger (n : Int) : Scalar :=
  match Integer.word? n with
  | some n => .int n
  | none => .float (Binary64.ofInt n)

def ofJson? : Json → Option Scalar
  | .null => some .null
  | .bool b => some (.bool b)
  | .number n =>
      (Json.number? n).map fun
        | .integer n => ofInteger n
        | .float x => .float x
  | .string s => some (.string s)
  | _ => none

def decode : Json.Decoder Scalar :=
  Json.decodeWhole "Scalar" ofJson?

end Scalar
end CqlStatements
