import CqlStatements.Error
import CqlStatements.Json.Reader
import CqlStatements.Text.Quoted

/-!
# Decoding JSON

A decoder turns a tree into a value of the domain. It walks the tree in text order and fails at the first
fault: either the text is malformed there, or what stands there does not fit. Arrays and objects may be
nested 127 levels deep, so a decoder is told how many levels may still be opened. What a record does not
know is passed over, whatever it holds, if it is JSON to its end.

A record is an object, its members in any order, or an array of its fields in their own order. The fields
that a record requires come first; in an array the others may be left off from the end.
-/
namespace CqlStatements.Json

/-- The kinds of JSON value, with what a message shows of them. -/
inductive Shape where
  | null
  | bool (b : Bool)
  | integer (n : Int)
  | float (x : Binary64)
  | string (s : String)
  | sequence
  | map
deriving DecidableEq, Repr

def Shape.text : Shape → String
  | null => "null"
  | bool true => "boolean `true`"
  | bool false => "boolean `false`"
  | integer n => "integer `" ++ String.ofList (numeralOfInt n).chars ++ "`"
  | float x => "floating point `" ++ String.ofList (numeralOfFloat x).chars ++ "`"
  | string s => "string " ++ Text.quoted s
  | sequence => "sequence"
  | map => "map"

/-- The kind of a value; nothing if the text is malformed before the kind is known. -/
def shape? : Json → Option Shape
  | .null => some .null
  | .bool b => some (.bool b)
  | .number n =>
      (number? n).map fun
        | .integer n => .integer n
        | .float x => .float x
  | .string s => some (.string s)
  | .array _ => some .sequence
  | .object _ => some .map
  | .unpaired | .broken => none

inductive DecodeError where
  | malformed
  | invalidType (found : Shape) (expected : String)
  | duplicateField (name : String)
  | missingField (name : String)
  | invalidLength (found : Nat) (record : String) (fields : Nat)
  | unknownVariant (name : String) (variants : List String)
  /-- Of a value that may have several shapes, none fits. -/
  | noVariant (type : String)
  | rejected (cause : Error)
deriving DecidableEq, Repr

def DecodeError.message : DecodeError → String
  | malformed => "malformed text"
  | invalidType found expected => "invalid type: " ++ found.text ++ ", expected " ++ expected
  | duplicateField name => "duplicate field `" ++ name ++ "`"
  | missingField name => "missing field `" ++ name ++ "`"
  | invalidLength found record fields =>
      "invalid length " ++ found.repr ++ ", expected struct " ++ record ++ " with " ++ fields.repr ++
        " elements"
  | unknownVariant name variants =>
      "unknown variant `" ++ name ++ "`, expected one of " ++
        ", ".intercalate (variants.map fun variant => "`" ++ variant ++ "`")
  | noVariant type => "data did not match any variant of untagged enum " ++ type
  | rejected cause => cause.message

/-- A decoder, which is told how many levels of nesting may still be opened. -/
abbrev Decoder (α : Type) := Nat → Json → Except DecodeError α

/-- The error of a value that is not what is expected. -/
def unexpected {α : Type} (expected : String) (j : Json) : Except DecodeError α :=
  match j.shape? with
  | some found => .error (.invalidType found expected)
  | none => .error .malformed

def decodeString (expected : String) : Decoder String
  | _, .string s => .ok s
  | _, j => unexpected expected j

def decodeText : Decoder String := decodeString "a string"

def decodeList {α : Type} (decode : Decoder α) : Decoder (List α)
  | 0, .array _ => .error .malformed
  | room + 1, .array items => items.mapM (decode room)
  | _, j => unexpected "a sequence" j

mutual

/-- Whether a value can be taken in full before its shape is looked at: it is JSON to the end, its
strings are text, its numbers are within range and it opens no more than `room` levels. -/
def fits : Nat → Json → Bool
  | _, .null | _, .bool _ | _, .string _ => true
  | _, .number n => (number? n).isSome
  | _, .unpaired | _, .broken => false
  | 0, .array _ | 0, .object _ => false
  | room + 1, .array items => allFit room items
  | room + 1, .object members => membersFit room members

def allFit : Nat → List Json → Bool
  | _, [] => true
  | room, item :: items => fits room item && allFit room items

def membersFit : Nat → List (Key × Json) → Bool
  | _, [] => true
  | room, (.text _, value) :: members => fits room value && membersFit room members
  | _, (.unpaired, _) :: _ | _, (.absent, _) :: _ => false

end

/-- Decodes a value by its shape alone, having taken it in full. -/
def decodeWhole {α : Type} (type : String) (read? : Json → Option α) : Decoder α := fun room j =>
  if j.fits room then
    match read? j with
    | some x => .ok x
    | none => .error (.noVariant type)
  else .error .malformed

/-- The fields of a record in their order. The first `required` of them have to be there. -/
structure Record (φ : Type) where
  name : String
  fields : List (String × Decoder φ)
  required : Nat

namespace Record

variable {φ : Type}

/-- Decodes members in text order, given the fields found before them. -/
def decodeMembers (r : Record φ) (room : Nat) :
    List (String × φ) → List (Key × Json) → Except DecodeError (List (String × φ))
  | found, [] => .ok found
  | found, (.text name, value) :: members =>
      match r.fields.lookup name with
      | none => if value.isWhole then r.decodeMembers room found members else .error .malformed
      | some decode =>
          if (found.lookup name).isSome then .error (.duplicateField name)
          else do
            let x ← decode room value
            r.decodeMembers room (found ++ [(name, x)]) members
  | _, (.unpaired, _) :: _ | _, (.absent, _) :: _ => .error .malformed

/-- Decodes items as fields in order; there may be fewer items than fields but not more. -/
def decodeItems (room : Nat) :
    List (String × Decoder φ) → List Json → Except DecodeError (List (String × φ))
  | [], [] => .ok []
  | [], _ :: _ => .error .malformed
  | _ :: _, [] => .ok []
  | (name, decode) :: fields, item :: items => do
      let x ← decode room item
      let found ← decodeItems room fields items
      .ok ((name, x) :: found)

/-- The fields of a record that are there, each with its name. -/
def decode (r : Record φ) : Decoder (List (String × φ))
  | 0, .array _ | 0, .object _ => .error .malformed
  | room + 1, .array items => do
      let found ← decodeItems room r.fields items
      if found.length < r.required then
        .error (.invalidLength found.length r.name r.fields.length)
      else .ok found
  | room + 1, .object members => r.decodeMembers room [] members
  | _, j => unexpected ("struct " ++ r.name) j

/-- The value of a field, looked for by its content. -/
def find? {α : Type} (pick : φ → Option α) (found : List (String × φ)) : Option α :=
  found.findSome? fun field => pick field.2

/-- The value of a field that has to be there. -/
def require {α : Type} (name : String) (pick : φ → Option α) (found : List (String × φ)) :
    Except DecodeError α :=
  match find? pick found with
  | some x => .ok x
  | none => .error (.missingField name)

end Record

/-- How many levels of arrays and objects a text may open. -/
def maxDepth : Nat := 127

/-- Decodes a text. What follows the value counts only if the value itself can be decoded. -/
def decodeWith {α : Type} (decode : Decoder α) (text : String) : Except DecodeError α := do
  let (tree, ended) := ofText text
  let x ← decode maxDepth tree
  if ended then .ok x else .error .malformed

end CqlStatements.Json
