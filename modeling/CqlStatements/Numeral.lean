/-!
# Numbers and their digits

A numeral is a number as it is written in decimal: a sign, a whole part without leading zeros, the
digits after the point and a power of ten. A part that is not there is not written, so a numeral has
one text. What a numeral is worth is its coefficient, a natural number, times a power of ten. Integers
have decimal texts of their own, and words and characters are also written in hexadecimal digits.
-/
namespace CqlStatements

structure Numeral where
  negative : Bool
  whole : Nat
  /-- The digits after the point; without digits there is no point. -/
  fraction : List (Fin 10)
  exponent : Option Int
deriving DecidableEq, Repr

namespace Numeral

def zeroDigit : Fin 10 := 0

def digitChar (d : Fin 10) : Char := d.val.digitChar

def digit? (c : Char) : Option (Fin 10) :=
  if c.isDigit then some (Fin.ofNat 10 (c.toNat - 48)) else none

theorem digit?_digitChar (d : Fin 10) : digit? (digitChar d) = some d := by
  revert d; decide

/-- The digits at the front of a text, and the text behind them. -/
def takeDigits : List Char → List (Fin 10) × List Char
  | [] => ([], [])
  | c :: cs =>
      match digit? c with
      | some d =>
          let (digits, rest) := takeDigits cs
          (d :: digits, rest)
      | none => ([], c :: cs)

/-- The number that a row of digits stands for, the last digit counting ones. -/
def ofDigits (digits : List (Fin 10)) : Nat :=
  digits.foldl (fun total digit => 10 * total + digit.val) 0

/-- The lowest `width` decimal digits of a number, highest first. -/
def lowDigits : Nat → Nat → List (Fin 10)
  | 0, _ => []
  | width + 1, n => lowDigits width (n / 10) ++ [Fin.ofNat 10 n]

theorem length_lowDigits (width n : Nat) : (lowDigits width n).length = width := by
  induction width generalizing n with
  | zero => rfl
  | succ width ih => simp only [lowDigits, List.length_append, ih, List.length_singleton]

theorem ofDigits_lowDigits (width n : Nat) :
    ofDigits (lowDigits width n) = n % Nat.pow 10 width := by
  induction width generalizing n with
  | zero => simp [lowDigits, ofDigits, Nat.mod_one]
  | succ width ih =>
      have h := ih (n / 10)
      simp only [ofDigits] at h
      simp only [lowDigits, ofDigits, List.foldl_append, List.foldl_cons, List.foldl_nil, h,
        Fin.val_ofNat]
      simp only [Nat.pow_eq]
      rw [Nat.pow_succ, Nat.mul_comm (10 ^ width) 10, Nat.mod_mul]
      omega

/-- All digits of the numeral as one number, the point left out. -/
def coefficient (n : Numeral) : Nat :=
  n.whole * Nat.pow 10 n.fraction.length + ofDigits n.fraction

/-- The power of ten by which the coefficient is multiplied. -/
def scale (n : Numeral) : Int :=
  n.exponent.getD 0 - n.fraction.length

/-- The numeral with at least one digit behind the point. -/
def withPoint (n : Numeral) : Numeral :=
  if n.fraction.isEmpty then { n with fraction := [zeroDigit] } else n

def exponentChars : Option Int → List Char
  | none => []
  | some e => 'e' :: (if e < 0 then '-' else '+') :: Nat.toDigits 10 e.natAbs

def fractionChars : List (Fin 10) → List Char
  | [] => []
  | digits => '.' :: digits.map digitChar

/-- The text of a numeral; a power of ten is written with its sign. -/
def chars (n : Numeral) : List Char :=
  (if n.negative then ['-'] else []) ++ Nat.toDigits 10 n.whole ++ fractionChars n.fraction ++
    exponentChars n.exponent

/-- Reads a power of ten, if one follows: a letter e, an optional sign and at least one digit. -/
def readExponent : List Char → Option (Option Int × List Char)
  | [] => some (none, [])
  | c :: cs =>
      if c = 'e' ∨ c = 'E' then
        let (negative, cs) :=
          match cs with
          | '-' :: cs => (true, cs)
          | '+' :: cs => (false, cs)
          | cs => (false, cs)
        let (digits, rest) := takeDigits cs
        if digits.isEmpty then none
        else
          let e : Int := ofDigits digits
          some (some (if negative then -e else e), rest)
      else some (none, c :: cs)

end Numeral
end CqlStatements

namespace CqlStatements.Integer

/-- The decimal text of an integer, without a sign unless it is negative. -/
def chars (n : Int) : List Char :=
  (if n < 0 then ['-'] else []) ++ Nat.toDigits 10 n.natAbs

/-- The integer of 64 bits with a given value, if there is one. -/
def word? (n : Int) : Option Int64 :=
  if Int64.minValue.toInt ≤ n ∧ n ≤ Int64.maxValue.toInt then some (Int64.ofInt n) else none

def hexDigit? (c : Char) : Option Nat :=
  if c.isDigit then some (c.toNat - '0'.toNat)
  else if 'a' ≤ c ∧ c ≤ 'f' then some (c.toNat - 'a'.toNat + 10)
  else if 'A' ≤ c ∧ c ≤ 'F' then some (c.toNat - 'A'.toNat + 10)
  else none

/-- The number that a row of digits stands for, the last digit counting ones. -/
def ofDigits (base : Nat) (digits : List Nat) : Nat :=
  digits.foldl (fun total digit => base * total + digit) 0

/-- The number of a row of hexadecimal digits, if they are all digits. -/
def ofHex? (cs : List Char) : Option Nat :=
  (cs.mapM hexDigit?).map (ofDigits 16)

end CqlStatements.Integer
