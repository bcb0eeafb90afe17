import CqlStatements.Binary64.Shortest

/-!
# JSON as it is read and written

A text is read into a tree that keeps members in order and with repetitions, and numbers as they are
written. A text that stops being JSON is read up to that place: the tree keeps everything before it and
holds `broken` there, as the last item or member of all that is still open. So whoever walks the tree
in order meets the faults of the text, whichever kind they are, in the order in which they stand there.

A number without point and power of ten is an integer if it fits into 64 bits, with or without a sign
bit. Every other number is a float, and so is negative zero. A float has the fewest digits that read
back, and of two equally near decimals the even one. It is written positionally, with at least one digit
behind the point, unless its first digit counts less than a hundred thousandth or at least ten to the
power sixteen. What is not finite has no number in JSON and is written as null.
-/
namespace CqlStatements

/-- What stands in the place of a member's key. -/
inductive Json.Key where
  | text (s : String)
  /-- A string with half of a surrogate pair. -/
  | unpaired
  /-- No string, so that the text stops being JSON here. -/
  | absent
deriving DecidableEq, Repr

inductive Json where
  | null
  | bool (b : Bool)
  | number (n : Numeral)
  | string (s : String)
  /-- A string with half of a surrogate pair. -/
  | unpaired
  | array (items : List Json)
  | object (members : List (Json.Key × Json))
  /-- The place where the text stops being JSON. -/
  | broken

namespace Json

mutual

/-- Whether the text of a tree is JSON to the end. Half of a surrogate pair does no harm here. -/
def isWhole : Json → Bool
  | .null | .bool _ | .number _ | .string _ | .unpaired => true
  | .array items => areWhole items
  | .object members => membersWhole members
  | .broken => false

def areWhole : List Json → Bool
  | [] => true
  | item :: items => item.isWhole && areWhole items

def membersWhole : List (Key × Json) → Bool
  | [] => true
  | (key, value) :: members => key != .absent && value.isWhole && membersWhole members

end

/-- The object with the given members, all of whose keys are text. -/
def ofFields (fields : List (String × Json)) : Json :=
  .object (fields.map fun field => (.text field.1, field.2))

inductive Number where
  | integer (n : Int)
  | float (x : Binary64)
deriving DecidableEq, Repr

/-- What a numeral stands for; nothing if it is too large for a float. -/
def number? (n : Numeral) : Option Number :=
  let value : Int := if n.negative then -(n.whole : Int) else n.whole
  let plain := n.fraction.isEmpty && n.exponent.isNone && !(n.negative && n.whole == 0)
  if plain ∧ Int64.minValue.toInt ≤ value ∧ value < UInt64.size then some (.integer value)
  else if n.toBinary64.isFinite then some (.float n.toBinary64)
  else none

def numeralOfInt (n : Int) : Numeral := ⟨n < 0, n.natAbs, [], none⟩

/-- The numeral that a finite float is written with. -/
def numeralOfFloat (x : Binary64) : Numeral :=
  if x.isZero then ⟨x.isNegative, 0, [Numeral.zeroDigit], none⟩
  else
    let d := x.shortest .even
    if -5 ≤ d.leading ∧ d.leading < 16 then (d.positional x.isNegative).withPoint
    else d.scientific x.isNegative

def ofInt (n : Int) : Json := .number (numeralOfInt n)

def ofFloat (x : Binary64) : Json :=
  if x.isFinite then .number (numeralOfFloat x) else .null

end Json
end CqlStatements
