import CqlStatements.Binary64

/-!
# The shortest decimal of a binary number

The real numbers that round to a finite number form an interval around it, which holds its ends exactly
if the significand is even. Of all decimals in the interval the shortest ones are the multiples of the
highest power of ten that has a multiple there, and of these the nearest to the number is taken. On any
grid of multiples only the number's two neighbours have to be looked at: if a multiple lies in the
interval, so does the neighbour on its side. Two neighbours may be equally near; which one is then
taken is left to the caller.
-/
namespace CqlStatements.Binary64

/-- A positive decimal: a natural number times a power of ten. -/
structure Decimal where
  digits : Nat
  exponent : Int
deriving DecidableEq, Repr

/-- Which of two equally near decimals is taken. -/
inductive Tie where
  | larger
  | even
deriving DecidableEq, Repr

/-- Says whether the upper of two equally near neighbours is taken, `lower` being the lower one. -/
def Tie.takesUpper : Tie → Nat → Bool
  | .larger, _ => true
  | .even, lower => lower % 2 == 1

/-- Three numbers over one denominator: the lower end of the interval, the number and the upper end. -/
structure Interval where
  low : Nat
  value : Nat
  high : Nat
  den : Nat
  closed : Bool

/-- The interval that rounds to a finite number, as multiples of ten to the power `exponent`. Below a
power of two the numbers lie twice as dense, so there the lower end is half as far away. -/
def interval (x : Binary64) (exponent : Int) : Interval :=
  let m := x.significand
  let low := 4 * m - (if x.fractionField = 0 ∧ 1 < x.exponentField then 1 else 2)
  let e := x.power - 2
  let num := Nat.pow 2 e.toNat * Nat.pow 10 (-exponent).toNat
  let den := Nat.pow 2 (-e).toNat * Nat.pow 10 exponent.toNat
  ⟨low * num, 4 * m * num, (4 * m + 2) * num, den, m % 2 == 0⟩

def Interval.contains (i : Interval) (n : Nat) : Bool :=
  let scaled := n * i.den
  if i.closed then i.low ≤ scaled && scaled ≤ i.high else i.low < scaled && scaled < i.high

/-- The natural number nearest to the value among its two neighbours that lie in the interval. -/
def Interval.nearest (tie : Tie) (i : Interval) : Option Nat :=
  let lower := i.value / i.den
  let below := i.value % i.den
  match i.contains lower, i.contains (lower + 1) with
  | true, true =>
      if 2 * below < i.den ∨ 2 * below = i.den ∧ ¬ tie.takesUpper lower then some lower
      else some (lower + 1)
  | true, false => some lower
  | false, true => some (lower + 1)
  | false, false => none

/-- The powers of ten that the shortest decimal of a finite number can be a multiple of, highest
first. -/
def grids : List Int := (List.range 633).map fun (k : Nat) => (308 : Int) - k

/-- The shortest decimal that rounds to a finite number other than zero, without its sign. -/
def shortest (tie : Tie) (x : Binary64) : Decimal :=
  (grids.findSome? fun exponent =>
    ((x.interval exponent).nearest tie).map fun digits => ⟨digits, exponent⟩).getD ⟨0, 0⟩

/-- A decimal written out without a power of ten. -/
def Decimal.positional (negative : Bool) (d : Decimal) : Numeral :=
  let places := (-d.exponent).toNat
  let shifted := d.digits * Nat.pow 10 d.exponent.toNat
  ⟨negative, shifted / Nat.pow 10 places, Numeral.lowDigits places shifted, none⟩

/-- A decimal written as one digit, the others behind the point, and a power of ten. -/
def Decimal.scientific (negative : Bool) (d : Decimal) : Numeral :=
  let places := (Nat.toDigits 10 d.digits).length - 1
  ⟨negative, d.digits / Nat.pow 10 places, Numeral.lowDigits places d.digits,
    some (d.exponent + places)⟩

/-- The power of ten that the first digit of a decimal counts. -/
def Decimal.leading (d : Decimal) : Int :=
  d.exponent + (Nat.toDigits 10 d.digits).length - 1

/-- A finite number in positional notation with the fewest digits; of two equally near decimals the
larger is taken. -/
def positional (x : Binary64) : Numeral :=
  if x.isZero then ⟨x.isNegative, 0, [], none⟩
  else (x.shortest .larger).positional x.isNegative

/-- The text of a number outside any data format: its digits in positional notation, without a point
where there is no fraction, or a word for what is not finite. -/
def plain (x : Binary64) : List Char :=
  if x.isNaN then "NaN".toList
  else if x.isFinite then x.positional.chars
  else (if x.isNegative then ['-'] else []) ++ "inf".toList

end CqlStatements.Binary64
