import CqlStatements.Descriptor

/-!
# Statements and their bound text

A statement is text with markers and the values for them in order. Binding goes through the text once
from left to right and puts the literal of the next value in the place of each marker. What was put in
is not looked at again, so a marker inside a bound string takes no value. Values left over are ignored;
too few are an error.
-/
namespace CqlStatements

/-- The character that stands for a value. -/
def marker : Char := '?'

def countMarkers (text : String) : Nat :=
  text.toList.count marker

/-- The text with its markers replaced in order, as far as the values go. -/
def bindChars : List Char → List Scalar → List Char
  | [], _ => []
  | c :: cs, [] => c :: bindChars cs []
  | c :: cs, value :: values =>
      if c = marker then value.literalChars ++ bindChars cs values
      else c :: bindChars cs (value :: values)

def bind (text : String) (values : List Scalar) : Except Error String :=
  if values.length < countMarkers text then
    .error (.tooFewValues (countMarkers text) values.length)
  else .ok (String.ofList (bindChars text.toList values))

structure Statement where
  operation : Operation
  text : String
  parameters : List Scalar
deriving DecidableEq, Repr

namespace Statement

def bound (s : Statement) : Except Error String :=
  bind s.text s.parameters

/-- The text sent to a cluster. Where filtering is allowed a select asks for it, and the request is
added before binding. -/
def finalize (s : Statement) (allowFiltering : Bool) : Except Error String :=
  if allowFiltering && s.operation == .select then
    bind (s.text ++ " allow filtering") s.parameters
  else s.bound

end Statement
end CqlStatements
