import CqlStatements.Numeral

/-!
# Binary numbers of 64 bits

A number is held as its word: one bit of sign, eleven of exponent and fifty-two of fraction. A finite
number is worth its significand times a power of two. Equality is equality of words, so the two zeros
differ and a word that is not a number equals itself.

A decimal numeral stands for the nearest number. Its value, a ratio of two natural numbers, is divided by
the power of two that leaves a quotient of 53 bits, or fewer where the number is subnormal, and the
quotient is rounded to the nearest natural number, a half going to the even one. From the rounded quotient
the word is one sum: a quotient that rounds up to 54 bits carries into the exponent field by itself.

A number typed by hand is in loose notation: an optional sign, digits with at most one point among, before
or after them, and an optional power of ten; or one of the words `inf`, `infinity` and `nan` in any letter
case. Nothing may stand before or behind it. A value too large becomes infinite.
-/
namespace CqlStatements

structure Binary64 where
  bits : UInt64
deriving DecidableEq, Repr

namespace Binary64

/-- The bit of the sign. -/
def signBit : Nat := 0x8000000000000000

/-- The lowest bit of the exponent field, just above the fraction field. -/
def exponentBit : Nat := 0x0010000000000000

def isNegative (x : Binary64) : Bool := signBit ≤ x.bits.toNat

def exponentField (x : Binary64) : Nat := x.bits.toNat / exponentBit % 2048

def fractionField (x : Binary64) : Nat := x.bits.toNat % exponentBit

def isFinite (x : Binary64) : Bool := x.exponentField != 2047

def isNaN (x : Binary64) : Bool := x.exponentField == 2047 && x.fractionField != 0

def isZero (x : Binary64) : Bool := x.exponentField == 0 && x.fractionField == 0

/-- The significand of a finite number, with the leading bit that the word leaves out. -/
def significand (x : Binary64) : Nat :=
  if x.exponentField = 0 then x.fractionField else exponentBit + x.fractionField

/-- The power of two that a finite number's significand is multiplied by. -/
def power (x : Binary64) : Int :=
  if x.exponentField = 0 then -1074 else (x.exponentField : Int) - 1075

/-- The number whose word below the sign bit is `magnitude`. -/
def ofMagnitude (negative : Bool) (magnitude : Nat) : Binary64 :=
  ⟨UInt64.ofNat ((if negative then signBit else 0) + magnitude)⟩

def infiniteMagnitude : Nat := 2047 * exponentBit

def zero (negative : Bool) : Binary64 := ofMagnitude negative 0

def infinity (negative : Bool) : Binary64 := ofMagnitude negative infiniteMagnitude

/-- The word that is not a number, with the highest bit of its fraction set. -/
def nan : Binary64 := ofMagnitude false (infiniteMagnitude + exponentBit / 2)

/-- A quotient rounded to the nearest natural number, a half to the even one. -/
def roundHalfEven (num den : Nat) : Nat :=
  let floor := num / den
  let twice := 2 * (num % den)
  if twice < den then floor
  else if den < twice then floor + 1
  else if floor % 2 = 0 then floor
  else floor + 1

/-- The ratio `num / den` divided by two to the power `e`. -/
def divideByPower (num den : Nat) : Int → Nat × Nat
  | .ofNat k => (num, den * Nat.pow 2 k)
  | .negSucc k => (num * Nat.pow 2 (k + 1), den)

/-- The word, below its sign bit, of the number nearest to a ratio; infinity where the ratio is at
least half a step above the greatest finite number. -/
def magnitudeOfRatio (num den : Nat) : Nat :=
  if num = 0 then 0
  else
    let estimate : Int := (num.log2 : Int) - den.log2 - 53
    let scaled := divideByPower num den estimate
    let e := max (-1074) (if scaled.1 < scaled.2 * (2 * exponentBit) then estimate else estimate + 1)
    let scaled := divideByPower num den e
    min infiniteMagnitude ((e + 1074).toNat * exponentBit + roundHalfEven scaled.1 scaled.2)

/-- The number nearest to `coefficient` times ten to the power `scale`. Scales far outside the range
of finite numbers are answered without writing the power out. -/
def ofDecimal (negative : Bool) (coefficient : Nat) (scale : Int) : Binary64 :=
  let top : Int := (Nat.toDigits 10 coefficient).length + scale
  if coefficient = 0 ∨ top < -330 then zero negative
  else if 310 < top then infinity negative
  else
    match scale with
    | .ofNat k => ofMagnitude negative (magnitudeOfRatio (coefficient * Nat.pow 10 k) 1)
    | .negSucc k => ofMagnitude negative (magnitudeOfRatio coefficient (Nat.pow 10 (k + 1)))

/-- The number nearest to an integer. -/
def ofInt (n : Int) : Binary64 :=
  ofMagnitude (n < 0) (magnitudeOfRatio n.natAbs 1)

end Binary64

/-- The binary number nearest to a numeral; it is infinite where the numeral is too large. -/
def Numeral.toBinary64 (n : Numeral) : Binary64 :=
  Binary64.ofDecimal n.negative n.coefficient n.scale

namespace Binary64

/-- An optional sign, and the text behind it. -/
def takeSign : List Char → Bool × List Char
  | '-' :: cs => (true, cs)
  | '+' :: cs => (false, cs)
  | cs => (false, cs)

/-- Reads digits with an optional point and power of ten up to the end of the text. -/
def ofUnsignedDigits? (negative : Bool) (cs : List Char) : Option Binary64 := do
  let (whole, rest) := Numeral.takeDigits cs
  let (fraction, rest) :=
    match rest with
    | '.' :: rest => Numeral.takeDigits rest
    | rest => ([], rest)
  if whole.isEmpty && fraction.isEmpty then none
  else
    match Numeral.readExponent rest with
    | some (exponent, []) =>
        some (Numeral.toBinary64 ⟨negative, Numeral.ofDigits whole, fraction, exponent⟩)
    | _ => none

def ofLoose? (s : String) : Option Binary64 :=
  let (negative, cs) := takeSign s.toList
  let word := String.ofList (cs.map Char.toLower)
  if word = "inf" ∨ word = "infinity" then some (infinity negative)
  else if word = "nan" then some nan
  else ofUnsignedDigits? negative cs

end Binary64
end CqlStatements
