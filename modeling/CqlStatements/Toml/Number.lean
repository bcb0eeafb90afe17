import CqlStatements.Toml

/-!
# Numbers, dates and times in TOML text

Between two digits of a number one underscore may stand. Integers have 64 bits; without a sign they may
also be written in base sixteen, eight or two. A float has a point with digits on both sides, or a power
of ten, or both. One above the greatest finite number is an error, but one below the least is minus
infinity. Dates and times are checked against the calendar and the clock and then forgotten.
-/
namespace CqlStatements.Toml

/-- Digits with single underscores between them, at least one digit. -/
def takeSeparated {δ : Type} (digit? : Char → Option δ) : List Char → Option (List δ × List Char)
  | [] => none
  | c :: cs => do
      let digit ← digit? c
      match cs with
      | [] => some ([digit], [])
      | next :: after =>
          if next = '_' then do
            let (digits, rest) ← takeSeparated digit? after
            some (digit :: digits, rest)
          else if (digit? next).isSome then do
            let (digits, rest) ← takeSeparated digit? (next :: after)
            some (digit :: digits, rest)
          else some ([digit], next :: after)

def baseDigit? (base : Nat) (c : Char) : Option Nat :=
  (Integer.hexDigit? c).filter (· < base)

def takeSign : List Char → Bool × List Char
  | '-' :: cs => (true, cs)
  | '+' :: cs => (false, cs)
  | cs => (false, cs)

/-- The whole part of a decimal number; a zero at its front is all of it. -/
def takeWhole (cs : List Char) : Option (List (Fin 10) × List Char) :=
  match cs with
  | '0' :: rest => some ([Numeral.zeroDigit], rest)
  | cs => takeSeparated Numeral.digit? cs

def readBased? (base : Nat) (cs : List Char) : Option (Toml × List Char) := do
  let (digits, rest) ← takeSeparated (baseDigit? base) cs
  let n ← Integer.word? (Integer.ofDigits base digits)
  some (.integer n, rest)

def readInteger? : List Char → Option (Toml × List Char)
  | '0' :: 'x' :: cs => readBased? 16 cs
  | '0' :: 'o' :: cs => readBased? 8 cs
  | '0' :: 'b' :: cs => readBased? 2 cs
  | cs => do
      let (negative, cs) := takeSign cs
      let (digits, rest) ← takeWhole cs
      let n : Int := Numeral.ofDigits digits
      let n ← Integer.word? (if negative then -n else n)
      some (.integer n, rest)

/-- The digits behind a point, if there is a point. -/
def takeFraction : List Char → Option (List (Fin 10) × List Char)
  | '.' :: cs => takeSeparated Numeral.digit? cs
  | cs => some ([], cs)

/-- The power of ten behind a letter e, if there is one. -/
def takeExponent : List Char → Option (Option Int × List Char)
  | [] => some (none, [])
  | c :: cs =>
      if c = 'e' ∨ c = 'E' then do
        let (negative, cs) := takeSign cs
        let (digits, rest) ← takeSeparated Numeral.digit? cs
        let e : Int := Numeral.ofDigits digits
        some (some (if negative then -e else e), rest)
      else some (none, c :: cs)

/-- The text behind a word at its front. -/
def afterWord? (word : String) (cs : List Char) : Option (List Char) :=
  if word.toList.isPrefixOf cs then some (cs.drop word.length) else none

def readFloat? (cs : List Char) : Option (Toml × List Char) :=
  let (negative, cs) := takeSign cs
  match afterWord? "inf" cs, afterWord? "nan" cs with
  | some rest, _ => some (.float (.infinity negative), rest)
  | _, some rest => some (.float .nan, rest)
  | none, none => do
      let (whole, cs) ← takeWhole cs
      let (fraction, cs) ← takeFraction cs
      let (exponent, rest) ← takeExponent cs
      let x := Numeral.toBinary64 ⟨negative, Numeral.ofDigits whole, fraction, exponent⟩
      if (fraction.isEmpty && exponent.isNone) || x = .infinity false then none
      else some (.float x, rest)

/-- The number of exactly `width` digits. -/
def takeFixed (width : Nat) (cs : List Char) : Option (Nat × List Char) :=
  let digits := (Numeral.takeDigits (cs.take width)).1
  if digits.length = width then some (Numeral.ofDigits digits, cs.drop width) else none

def afterChar? (c : Char) : List Char → Option (List Char)
  | [] => none
  | first :: rest => if first = c then some rest else none

def daysInMonth (year month : Nat) : Nat :=
  if month = 2 then
    if year % 4 = 0 ∧ (year % 100 ≠ 0 ∨ year % 400 = 0) then 29 else 28
  else if month = 4 ∨ month = 6 ∨ month = 9 ∨ month = 11 then 30
  else 31

/-- The text behind a date. -/
def afterDate? (cs : List Char) : Option (List Char) := do
  let (year, cs) ← takeFixed 4 cs
  let cs ← afterChar? '-' cs
  let (month, cs) ← takeFixed 2 cs
  let cs ← afterChar? '-' cs
  let (day, cs) ← takeFixed 2 cs
  if 1 ≤ month ∧ month ≤ 12 ∧ 1 ≤ day ∧ day ≤ daysInMonth year month then some cs else none

/-- The text behind an hour and a minute. -/
def afterMinutes? (cs : List Char) : Option (List Char) := do
  let (hour, cs) ← takeFixed 2 cs
  let cs ← afterChar? ':' cs
  let (minute, cs) ← takeFixed 2 cs
  if hour < 24 ∧ minute < 60 then some cs else none

/-- The text behind a time; a minute may have a second number sixty. -/
def afterTime? (cs : List Char) : Option (List Char) := do
  let cs ← afterMinutes? cs
  let cs ← afterChar? ':' cs
  let (second, cs) ← takeFixed 2 cs
  if 60 < second then none
  else
    match cs with
    | '.' :: rest =>
        match Numeral.takeDigits rest with
        | ([], _) => some cs
        | (_, rest) => some rest
    | cs => some cs

/-- The text behind the distance from universal time, if one stands here. -/
def afterOffset (cs : List Char) : List Char :=
  match cs with
  | [] => []
  | c :: rest =>
      if c = 'Z' ∨ c = 'z' then rest
      else if c = '+' ∨ c = '-' then (afterMinutes? rest).getD cs
      else cs

/-- The text behind a time of day that belongs to a date, if one stands here. -/
def afterTimeOfDay (cs : List Char) : List Char :=
  match cs with
  | [] => []
  | c :: rest =>
      if c = 'T' ∨ c = 't' ∨ c = ' ' then ((afterTime? rest).map afterOffset).getD cs else cs

def readMoment? (cs : List Char) : Option (Toml × List Char) :=
  (((afterDate? cs).map afterTimeOfDay).or (afterTime? cs)).map fun rest => (.moment, rest)

/-- Reads a date or time, a float or an integer, whichever of them stands here in this order. -/
def readNumber? (cs : List Char) : Option (Toml × List Char) :=
  ((readMoment? cs).or (readFloat? cs)).or (readInteger? cs)

end CqlStatements.Toml
