import CqlStatements.Proofs.Binary64.ReadBack
import CqlStatements.Proofs.Numerals
import CqlStatements.Toml.Number
import CqlStatements.Toml.Writer

/-!
# Numbers read back from TOML text

A number is read as a date or time first, then as a float, then as an integer. Written integers have no
mark that dates and times need, and no point, so they come back as integers; written floats have a point
or are one of the words for what is not finite, and come back as floats. Of the words that are not numbers
only one is ever read.
-/
namespace CqlStatements.Toml

open Numeral

/-- Text behind a written value. -/
def Closes (rest : List Char) : Prop := ∀ c, rest.head? = some c → c = ',' ∨ c = ']' ∨ c = '\n'

theorem Closes.ne {rest : List Char} (closes : Closes rest) {c : Char}
    (other : c ≠ ',' ∧ c ≠ ']' ∧ c ≠ '\n') : rest.head? ≠ some c := by
  intro same
  rcases closes c same with h | h | h
  · exact other.1 h
  · exact other.2.1 h
  · exact other.2.2 h

theorem Closes.noDigit {rest : List Char} (closes : Closes rest) : NoDigit rest := by
  intro c first
  rcases closes c first with rfl | rfl | rfl <;> decide

section Digits

variable {rest : List Char} (stop : NoDigit rest) (single : rest.head? ≠ some '_')
include stop single

theorem takeSeparated_append (d : Fin 10) (more : List (Fin 10)) :
    takeSeparated digit? ((d :: more).map digitChar ++ rest) = some (d :: more, rest) := by
  have plain : ∀ d : Fin 10, digitChar d ≠ '_' := by decide
  induction more generalizing d with
  | nil =>
      cases rest with
      | nil => simp [takeSeparated, digit?_digitChar]
      | cons c cs =>
          have other : digit? c = none := stop c rfl
          have letter : c ≠ '_' := fun same => single (congrArg some same)
          simp [takeSeparated, digit?_digitChar, other, letter]
  | cons e more ih =>
      have behind := ih e
      rw [List.map_cons, List.cons_append] at behind
      simp [takeSeparated, digit?_digitChar, plain e, behind]

theorem takeWhole_append (n : Nat) :
    ∃ digits, takeWhole (Nat.toDigits 10 n ++ rest) = some (digits, rest) ∧ ofDigits digits = n := by
  obtain ⟨first, more, text, value, leading⟩ := exists_digits n
  refine ⟨first :: more, ?_, value⟩
  rw [text, takeWhole.eq_def]
  split
  · rename_i zero
    rw [List.map_cons, List.cons_append, List.cons.injEq] at zero
    obtain rfl : first = 0 := by
      have : ∀ d : Fin 10, digitChar d = '0' → d = 0 := by decide
      exact this first zero.1
    obtain rfl := leading rfl
    rw [← zero.2]
    rfl
  · exact takeSeparated_append stop single first more

end Digits

section Signs

/-- A number begins with a digit behind its sign. -/
theorem exists_toDigits_eq (n : Nat) (rest : List Char) :
    ∃ d cs, Nat.toDigits 10 n ++ rest = digitChar d :: cs := by
  obtain ⟨first, more, text, -, -⟩ := exists_digits n
  exact ⟨first, _, by rw [text, List.map_cons, List.cons_append]⟩

theorem takeSign_signed (negative : Bool) {c : Char} (unsigned : c ≠ '-' ∧ c ≠ '+')
    (cs : List Char) :
    takeSign ((if negative then ['-'] else []) ++ c :: cs) = (negative, c :: cs) := by
  cases negative with
  | true => rfl
  | false =>
      rw [if_neg Bool.false_ne_true, List.nil_append, takeSign]
      · intro more same
        exact unsigned.1 (List.cons.inj same).1
      · intro more same
        exact unsigned.2 (List.cons.inj same).1

theorem takeSign_append (negative : Bool) (n : Nat) (rest : List Char) :
    takeSign ((if negative then ['-'] else []) ++ (Nat.toDigits 10 n ++ rest)) =
      (negative, Nat.toDigits 10 n ++ rest) := by
  have unsigned : ∀ d : Fin 10, digitChar d ≠ '-' ∧ digitChar d ≠ '+' := by decide
  obtain ⟨d, cs, first⟩ := exists_toDigits_eq n rest
  rw [first]
  exact takeSign_signed negative (unsigned d) cs

theorem afterWord?_append (word : String) (rest : List Char) :
    afterWord? word (word.toList ++ rest) = some rest := by
  have found : word.toList.isPrefixOf (word.toList ++ rest) = true :=
    List.isPrefixOf_iff_prefix.mpr (List.prefix_append _ _)
  rw [afterWord?, if_pos found, ← String.length_toList, List.drop_left]

theorem afterWord?_of_ne {word : String} {first c : Char} {letters : List Char}
    (spelled : word.toList = first :: letters) (other : first ≠ c) (cs : List Char) :
    afterWord? word (c :: cs) = none := by
  have absent : (first :: letters).isPrefixOf (c :: cs) = false := by
    simp [List.isPrefixOf, other]
  rw [afterWord?, spelled, absent]
  rfl

/-- Digits are no word. -/
theorem afterWord?_toDigits {word : String} (spelled : word = "inf" ∨ word = "nan") (n : Nat)
    (rest : List Char) : afterWord? word (Nat.toDigits 10 n ++ rest) = none := by
  have letter : ∀ d : Fin 10, 'i' ≠ digitChar d ∧ 'n' ≠ digitChar d := by decide
  obtain ⟨d, cs, first⟩ := exists_toDigits_eq n rest
  rw [first]
  rcases spelled with rfl | rfl
  · exact afterWord?_of_ne rfl (letter d).1 cs
  · exact afterWord?_of_ne rfl (letter d).2 cs

end Signs

section Moments

theorem takeFixed_of_noDigit {cs : List Char} (none : NoDigit cs) (width : Nat) :
    takeFixed (width + 1) cs = Option.none := by
  have front : NoDigit (cs.take (width + 1)) := by
    cases cs with
    | nil => exact none
    | cons c cs => exact none
  rw [takeFixed, takeDigits_of_noDigit front]
  rfl

theorem isDigit_of_takeDigits (cs : List Char) : ∃ front, cs = front ++ (takeDigits cs).2 ∧
    front.length = (takeDigits cs).1.length ∧ ∀ c ∈ front, digit? c ≠ none := by
  induction cs with
  | nil => exact ⟨[], rfl, rfl, by simp⟩
  | cons c cs ih =>
      cases digit : digit? c with
      | none => exact ⟨[], by simp [takeDigits, digit], by simp [takeDigits, digit], by simp⟩
      | some d =>
          obtain ⟨front, text, length, digits⟩ := ih
          refine ⟨c :: front, ?_, ?_, ?_⟩
          · rw [takeDigits, digit]
            exact congrArg (c :: ·) text
          · rw [takeDigits, digit]
            exact congrArg (· + 1) length
          · rw [List.forall_mem_cons, digit]
            exact ⟨Option.some_ne_none d, digits⟩

/-- What stands in front of the text behind a fixed number of digits is just these digits. -/
theorem takeFixed_eq_some {width n : Nat} {cs rest : List Char}
    (taken : takeFixed width cs = some (n, rest)) :
    ∃ front, cs = front ++ rest ∧ ∀ c ∈ front, digit? c ≠ none := by
  unfold takeFixed at taken
  dsimp only at taken
  split at taken
  · rename_i enough
    obtain ⟨front, text, length, digits⟩ := isDigit_of_takeDigits (cs.take width)
    have all : front = cs.take width := by
      have whole := congrArg List.length text
      rw [List.length_append, List.length_take, length, enough] at whole
      have nothing : (takeDigits (cs.take width)).2 = [] :=
        List.eq_nil_of_length_eq_zero (by omega)
      rw [nothing, List.append_nil] at text
      exact text.symm
    obtain rfl : cs.drop width = rest := (Prod.mk.inj (Option.some.inj taken)).2
    exact ⟨cs.take width, (List.take_append_drop width cs).symm, all ▸ digits⟩
  · cases taken

/-- Behind some of the digits of a number stands another of them or what follows the number. -/
theorem head?_behind_digits {front rest tail : List Char} {ds : List (Fin 10)} (stop : NoDigit tail)
    (digits : ∀ c ∈ front, digit? c ≠ none) (same : ds.map digitChar ++ tail = front ++ rest)
    {c : Char} (first : rest.head? = some c) : digit? c ≠ none ∨ tail.head? = some c := by
  induction front generalizing ds with
  | nil =>
      rw [List.nil_append] at same
      subst same
      cases ds with
      | nil => exact .inr first
      | cons d ds =>
          obtain rfl : digitChar d = c := Option.some.inj first
          rw [digit?_digitChar]
          exact .inl (Option.some_ne_none d)
  | cons f front ih =>
      rw [List.forall_mem_cons] at digits
      cases ds with
      | nil =>
          rw [List.map_nil, List.nil_append] at same
          subst same
          exact absurd (stop f rfl) digits.1
      | cons d ds => exact ih digits.2 (List.cons.inj same).2

theorem afterChar?_takeFixed {ds : List (Fin 10)} {tail rest : List Char} (stop : NoDigit tail)
    {width n : Nat} (taken : takeFixed width (ds.map digitChar ++ tail) = some (n, rest))
    {mark : Char} (noDigit : digit? mark = none) (absent : tail.head? ≠ some mark) :
    afterChar? mark rest = none := by
  obtain ⟨front, text, digits⟩ := takeFixed_eq_some taken
  cases rest with
  | nil => rfl
  | cons c cs =>
      have other : c ≠ mark := by
        rintro rfl
        rcases head?_behind_digits stop digits text rfl with digit | follows
        · exact digit noDigit
        · exact absent follows
      rw [afterChar?, if_neg other]

/-- Digits without the marks of dates and times behind them are neither. -/
theorem readMoment?_digits (ds : List (Fin 10)) {tail : List Char} (stop : NoDigit tail)
    (date : tail.head? ≠ some '-') (time : tail.head? ≠ some ':') :
    readMoment? (ds.map digitChar ++ tail) = none := by
  have noDate : afterDate? (ds.map digitChar ++ tail) = none := by
    unfold afterDate?
    cases taken : takeFixed 4 (ds.map digitChar ++ tail) with
    | none => rfl
    | some found =>
        have behind := afterChar?_takeFixed stop taken (by decide : digit? '-' = none) date
        simp [behind]
  have noTime : afterTime? (ds.map digitChar ++ tail) = none := by
    unfold afterTime? afterMinutes?
    cases taken : takeFixed 2 (ds.map digitChar ++ tail) with
    | none => rfl
    | some found =>
        have behind := afterChar?_takeFixed stop taken (by decide : digit? ':' = none) time
        simp [behind]
  rw [readMoment?, noDate, noTime]
  rfl

theorem readMoment?_of_noDigit {cs : List Char} (none : NoDigit cs) :
    readMoment? cs = Option.none := by
  have noDate : afterDate? cs = Option.none := by
    rw [afterDate?, takeFixed_of_noDigit none 3]
    rfl
  have noTime : afterTime? cs = Option.none := by
    rw [afterTime?, afterMinutes?, takeFixed_of_noDigit none 1]
    rfl
  rw [readMoment?, noDate, noTime]
  rfl

/-- No written number is a date or time. -/
theorem readMoment?_number (negative : Bool) (n : Nat) {tail : List Char} (stop : NoDigit tail)
    (date : tail.head? ≠ some '-') (time : tail.head? ≠ some ':') :
    readMoment? ((if negative then ['-'] else []) ++ (Nat.toDigits 10 n ++ tail)) = none := by
  cases negative with
  | true =>
      apply readMoment?_of_noDigit
      intro c first
      obtain rfl : '-' = c := Option.some.inj first
      decide
  | false =>
      obtain ⟨first, more, text, -, -⟩ := exists_digits n
      rw [if_neg Bool.false_ne_true, List.nil_append, text]
      exact readMoment?_digits _ stop date time

end Moments

section Integers

variable {rest : List Char} (closes : Closes rest)
include closes

theorem takeExponent_closes : takeExponent rest = some (none, rest) := by
  cases rest with
  | nil => rfl
  | cons c cs =>
      have lower : c ≠ 'e' := fun same => closes.ne (by decide : _) (congrArg some same)
      have upper : c ≠ 'E' := fun same => closes.ne (by decide : _) (congrArg some same)
      simp [takeExponent, lower, upper]

theorem takeFraction_closes : takeFraction rest = some ([], rest) := by
  rw [takeFraction.eq_def]
  split
  · exact absurd rfl (closes.ne (by decide : '.' ≠ ',' ∧ '.' ≠ ']' ∧ '.' ≠ '\n'))
  · rfl

/-- An integer has no point and no power of ten. -/
theorem readFloat?_integer (negative : Bool) (n : Nat) :
    readFloat? ((if negative then ['-'] else []) ++ (Nat.toDigits 10 n ++ rest)) = none := by
  have single : rest.head? ≠ some '_' := closes.ne (by decide)
  obtain ⟨digits, whole, -⟩ := takeWhole_append closes.noDigit single n
  simp [readFloat?, takeSign_append, afterWord?_toDigits, whole, takeFraction_closes closes,
    takeExponent_closes closes]

omit closes in
/-- The digits of a number have no letter of another base behind a zero. -/
theorem number_ne_based {letter : Char} (noDigit : digit? letter = none)
    (absent : rest.head? ≠ some letter) (negative : Bool) (n : Nat) (cs : List Char) :
    (if negative then ['-'] else []) ++ (Nat.toDigits 10 n ++ rest) ≠ '0' :: letter :: cs := by
  cases negative with
  | true => exact fun same => absurd (List.cons.inj same).1 (by decide)
  | false =>
      obtain ⟨first, more, text, -, -⟩ := exists_digits n
      rw [if_neg Bool.false_ne_true, List.nil_append, text, List.map_cons, List.cons_append]
      intro same
      have behind := (List.cons.inj same).2
      cases more with
      | nil =>
          rw [List.map_nil, List.nil_append] at behind
          exact absent (congrArg List.head? behind)
      | cons d more =>
          rw [← (List.cons.inj behind).1, digit?_digitChar] at noDigit
          cases noDigit

omit closes in
theorem integerChars_append (n : Int) (rest : List Char) : Integer.chars n ++ rest =
    (if decide (n < 0) then ['-'] else []) ++ (Nat.toDigits 10 n.natAbs ++ rest) := by
  rw [Integer.chars, List.append_assoc]
  simp only [decide_eq_true_eq]

theorem readInteger?_append (n : Int64) :
    readInteger? (Integer.chars n.toInt ++ rest) = some (.integer n, rest) := by
  have single : rest.head? ≠ some '_' := closes.ne (by decide)
  obtain ⟨digits, whole, value⟩ := takeWhole_append closes.noDigit single n.toInt.natAbs
  have signed : (if decide (n.toInt < 0) then -(n.toInt.natAbs : Int) else n.toInt.natAbs) =
      n.toInt := by
    simp only [decide_eq_true_eq]
    omega
  have word : Integer.word? n.toInt = some n := Integer.word?_eq_some_iff.mpr rfl
  rw [integerChars_append, readInteger?]
  · simp only [takeSign_append, whole, value, signed, word, Option.bind_eq_bind, Option.bind_some]
  · exact number_ne_based (by decide) (closes.ne (by decide)) _ _
  · exact number_ne_based (by decide) (closes.ne (by decide)) _ _
  · exact number_ne_based (by decide) (closes.ne (by decide)) _ _

/-- A written integer is read back. -/
theorem readNumber?_integer (n : Int64) :
    readNumber? (Integer.chars n.toInt ++ rest) = some (.integer n, rest) := by
  have read := readInteger?_append closes n
  rw [integerChars_append] at read ⊢
  rw [readNumber?, readFloat?_integer closes, read,
    readMoment?_number _ _ closes.noDigit (closes.ne (by decide)) (closes.ne (by decide))]
  rfl

end Integers

section Floats

/-- Of the words that are not numbers only the one that is read. -/
def Canonical (x : Binary64) : Prop := x.isNaN = true → x = .nan

theorem isNaN_of_isFinite {x : Binary64} (finite : x.isFinite = true) : x.isNaN = false := by
  rw [Binary64.isFinite, bne_iff_ne] at finite
  simp [Binary64.isNaN, finite]

theorem floatChars_nan {x : Binary64} (word : x.isNaN = true) : floatChars x = "nan".toList :=
  if_pos word

theorem floatChars_infinity {x : Binary64} (number : x.isNaN = false) (infinite : x.isFinite = false) :
    floatChars x = (if x.isNegative then ['-'] else []) ++ "inf".toList := by
  simp [floatChars, Binary64.plain, number, infinite]

/-- What is neither a number nor finite is infinite. -/
theorem eq_infinity {x : Binary64} (number : x.isNaN = false) (infinite : x.isFinite = false) :
    x = .infinity x.isNegative := by
  have field : x.exponentField = 2047 := by simpa [Binary64.isFinite] using infinite
  have fraction : x.fractionField = 0 := by simpa [Binary64.isNaN, field] using number
  have word := x.ofMagnitude_magnitude
  rw [Binary64.magnitude, field, fraction, Nat.add_zero] at word
  exact word.symm

theorem noDigit_signed (negative : Bool) {c : Char} (letter : digit? c = none) (cs : List Char) :
    NoDigit ((if negative then ['-'] else []) ++ c :: cs) := by
  intro first same
  cases negative with
  | true =>
      obtain rfl : '-' = first := Option.some.inj same
      decide
  | false =>
      obtain rfl : c = first := Option.some.inj same
      exact letter

theorem readFloat?_nan {cs rest : List Char} (inf : afterWord? "inf" cs = none)
    (nan : afterWord? "nan" cs = some rest) (unsigned : takeSign cs = (false, cs)) :
    readFloat? cs = some (.float .nan, rest) := by
  simp only [readFloat?, unsigned, inf, nan]

theorem readFloat?_infinity {cs body rest : List Char} {negative : Bool}
    (sign : takeSign cs = (negative, body)) (inf : afterWord? "inf" body = some rest) :
    readFloat? cs = some (.float (.infinity negative), rest) := by
  simp only [readFloat?, sign, inf]

/-- A word for what is not finite is no date or time, and a float of its own. -/
theorem readNumber?_word {x : Binary64} (infinite : x.isFinite = false) (canonical : Canonical x)
    (rest : List Char) : readNumber? (floatChars x ++ rest) = some (.float x, rest) := by
  cases word : x.isNaN with
  | true =>
      have text : floatChars x ++ rest = 'n' :: 'a' :: 'n' :: rest := by
        rw [floatChars_nan word]
        rfl
      have moment : readMoment? ('n' :: 'a' :: 'n' :: rest) = none :=
        readMoment?_of_noDigit (noDigit_signed false (by decide) _)
      have inf : afterWord? "inf" ('n' :: 'a' :: 'n' :: rest) = none :=
        afterWord?_of_ne rfl (by decide) _
      have float := readFloat?_nan inf (afterWord?_append "nan" rest) rfl
      rw [text, readNumber?, moment, float, canonical word]
      rfl
  | false =>
      have text : floatChars x ++ rest =
          (if x.isNegative then ['-'] else []) ++ 'i' :: 'n' :: 'f' :: rest := by
        rw [floatChars_infinity word infinite, List.append_assoc]
        rfl
      have moment := readMoment?_of_noDigit
        (noDigit_signed x.isNegative (by decide : digit? 'i' = none) ('n' :: 'f' :: rest))
      have sign := takeSign_signed x.isNegative (by decide : 'i' ≠ '-' ∧ 'i' ≠ '+')
        ('n' :: 'f' :: rest)
      have float := readFloat?_infinity sign (afterWord?_append "inf" rest)
      rw [text, readNumber?, moment, float, ← eq_infinity word infinite]
      rfl

variable {rest : List Char} (closes : Closes rest)
include closes

/-- A numeral with a point is read as the float that it stands for. -/
theorem readNumber?_numeral {n : Numeral} {d : Fin 10} {ds : List (Fin 10)}
    (fraction : n.fraction = d :: ds) (exponent : n.exponent = none)
    (finite : n.toBinary64 ≠ .infinity false) :
    readNumber? (n.chars ++ rest) = some (.float n.toBinary64, rest) := by
  have text : n.chars ++ rest = (if n.negative then ['-'] else []) ++
      (Nat.toDigits 10 n.whole ++ '.' :: ((d :: ds).map digitChar ++ rest)) := by
    rw [chars, fraction, exponent]
    simp only [fractionChars, exponentChars, List.append_assoc, List.cons_append, List.nil_append]
  have stop : NoDigit ('.' :: ((d :: ds).map digitChar ++ rest)) := by
    intro c first
    obtain rfl : '.' = c := Option.some.inj first
    decide
  obtain ⟨digits, whole, value⟩ := takeWhole_append stop (by simp) n.whole
  have behind : takeFraction ('.' :: ((d :: ds).map digitChar ++ rest)) = some (d :: ds, rest) :=
    takeSeparated_append closes.noDigit (closes.ne (by decide)) d ds
  have same : (⟨n.negative, ofDigits digits, d :: ds, none⟩ : Numeral) = n := by
    rw [value, ← fraction, ← exponent]
  have moment := readMoment?_number n.negative n.whole stop (by simp) (by simp)
  rw [text]
  generalize '.' :: ((d :: ds).map digitChar ++ rest) = tail at *
  have float : readFloat? ((if n.negative then ['-'] else []) ++ (Nat.toDigits 10 n.whole ++ tail)) =
      some (.float n.toBinary64, rest) := by
    simp [readFloat?, takeSign_append, afterWord?_toDigits, whole, behind,
      takeExponent_closes closes, same, finite]
  rw [readNumber?, moment, float]
  rfl

/-- A finite float has a point. -/
theorem readNumber?_finite {x : Binary64} (finite : x.isFinite = true) :
    readNumber? (floatChars x ++ rest) = some (.float x, rest) := by
  have number := isNaN_of_isFinite finite
  have text : floatChars x = x.positional.withPoint.chars := by
    simp [floatChars, number, finite]
  have exponent : x.positional.withPoint.exponent = none := by
    unfold Numeral.withPoint Binary64.positional
    split <;> split <;> rfl
  have word := Binary64.toBinary64_positional finite
  have small : x.positional.withPoint.toBinary64 ≠ .infinity false := by
    rw [word]
    rintro rfl
    exact absurd finite (by decide)
  cases fraction : x.positional.withPoint.fraction with
  | nil =>
      unfold Numeral.withPoint at fraction
      split at fraction <;> simp_all
  | cons d ds =>
      have read := readNumber?_numeral closes fraction exponent small
      rw [word] at read
      rw [text, read]

/-- A written float is read back. -/
theorem readNumber?_float {x : Binary64} (canonical : Canonical x) :
    readNumber? (floatChars x ++ rest) = some (.float x, rest) := by
  cases finite : x.isFinite with
  | true => exact readNumber?_finite closes finite
  | false => exact readNumber?_word finite canonical rest

end Floats

end CqlStatements.Toml
