import CqlStatements.Proofs.Numerals
import CqlStatements.Scalar

/-!
# Scalars typed by hand

Two grammars say which texts are integers and which are numbers in loose notation. They know nothing of the
recognisers, nor of the width of an integer; integers are numbers too. What a typed text becomes is decided
by these grammars and by the range of 64 bits alone, and no other text is taken for anything but a string.
-/
namespace CqlStatements

namespace Integer

/-- A text is an integer in decimal: a sign or none, and at least one digit. Zeros may lead. -/
def Typed (n : Int) (cs : List Char) : Prop :=
  ∃ negative sign digits, Numeral.SignText negative sign ∧ digits ≠ [] ∧
    (∀ c ∈ digits, c.isDigit = true) ∧ cs = sign ++ digits ∧
    n = if negative then -(Nat.ofDigitChars 10 digits 0 : Int) else Nat.ofDigitChars 10 digits 0

theorem typed_iff {n : Int} {cs : List Char} :
    Typed n cs ↔ ∃ negative sign, ∃ digits : List (Fin 10), Numeral.SignText negative sign ∧
      digits ≠ [] ∧ cs = sign ++ digits.map Numeral.digitChar ∧
      n = if negative then -(Numeral.ofDigits digits : Int) else Numeral.ofDigits digits := by
  constructor
  · rintro ⟨negative, sign, cs, signed, nonempty, all, rfl, rfl⟩
    obtain ⟨digits, rfl⟩ := Numeral.exists_digits_of_isDigit all
    refine ⟨negative, sign, digits, signed, mt List.map_eq_nil_iff.mpr nonempty, rfl, ?_⟩
    rw [Numeral.ofDigitChars_map]
  · rintro ⟨negative, sign, digits, signed, nonempty, rfl, rfl⟩
    refine ⟨negative, sign, _, signed, mt List.map_eq_nil_iff.mp nonempty, ?_, rfl, ?_⟩
    · exact List.forall_mem_map.mpr fun d _ => Numeral.isDigit_digitChar d
    · rw [Numeral.ofDigitChars_map]

/-- A text is no more than one integer. -/
theorem Typed.unique {n m : Int} {cs : List Char} (first : Typed n cs) (second : Typed m cs) : n = m := by
  obtain ⟨negative, sign, digits, signed, nonempty, rfl, rfl⟩ := typed_iff.mp first
  obtain ⟨negative', sign', digits', signed', nonempty', text, rfl⟩ := typed_iff.mp second
  have same := Numeral.takeSign_digits signed nonempty
  rw [text, Numeral.takeSign_digits signed' nonempty'] at same
  obtain ⟨rfl, rows⟩ := Prod.mk.inj same
  have value := Numeral.ofDigitChars_map digits
  rw [← rows, Numeral.ofDigitChars_map] at value
  rw [value]

theorem typed_chars (n : Int) : Typed n (chars n) := by
  obtain ⟨first, more, text, value, -⟩ := Numeral.exists_digits n.natAbs
  rw [chars, text]
  by_cases negative : n < 0
  · rw [if_pos negative]
    exact typed_iff.mpr ⟨true, _, first :: more, .minus, List.cons_ne_nil _ _, rfl,
      by rw [if_pos rfl, value]; omega⟩
  · rw [if_neg negative]
    exact typed_iff.mpr ⟨false, _, first :: more, .none, List.cons_ne_nil _ _, rfl,
      by rw [if_neg Bool.false_ne_true, value]; omega⟩

end Integer

namespace Binary64

/-- A number in digits, without its sign: there may be a point behind, before or among them. -/
inductive DigitsText (negative : Bool) : Binary64 → List Char → Prop
  | plain {whole : List (Fin 10)} {exponent : Option Int} {text : List Char} : whole ≠ [] →
      Numeral.ExponentText exponent text →
      DigitsText negative (Numeral.toBinary64 ⟨negative, Numeral.ofDigits whole, [], exponent⟩)
        (whole.map Numeral.digitChar ++ text)
  | pointed {whole fraction : List (Fin 10)} {exponent : Option Int} {text : List Char} :
      ¬(whole = [] ∧ fraction = []) → Numeral.ExponentText exponent text →
      DigitsText negative (Numeral.toBinary64 ⟨negative, Numeral.ofDigits whole, fraction, exponent⟩)
        (whole.map Numeral.digitChar ++ '.' :: (fraction.map Numeral.digitChar ++ text))

/-- A text is a number in loose notation, and what it is worth. -/
inductive Typed : Binary64 → List Char → Prop
  | infinity {negative : Bool} {sign word : List Char} : Numeral.SignText negative sign →
      word.map Char.toLower = "inf".toList ∨ word.map Char.toLower = "infinity".toList →
      Typed (infinity negative) (sign ++ word)
  | nan {negative : Bool} {sign word : List Char} : Numeral.SignText negative sign →
      word.map Char.toLower = "nan".toList → Typed nan (sign ++ word)
  | digits {negative : Bool} {sign body : List Char} {x : Binary64} : Numeral.SignText negative sign →
      DigitsText negative x body → Typed x (sign ++ body)

section Digits

open Numeral

variable {negative : Bool} {cs : List Char} {x : Binary64}

/-- A number in digits begins with one of them or with its point. -/
theorem DigitsText.first (digits : DigitsText negative x cs) :
    ∃ c tail, cs = c :: tail ∧ (c = '.' ∨ ∃ d, c = digitChar d) := by
  cases digits with
  | plain nonempty =>
      obtain ⟨d, whole, rfl⟩ := List.exists_cons_of_ne_nil nonempty
      exact ⟨digitChar d, _, rfl, .inr ⟨d, rfl⟩⟩
  | @pointed whole =>
      cases whole with
      | nil => exact ⟨'.', _, rfl, .inl rfl⟩
      | cons d whole => exact ⟨digitChar d, _, rfl, .inr ⟨d, rfl⟩⟩

theorem noDigit_point (rest : List Char) : NoDigit ('.' :: rest) := by
  intro c first
  rw [← Option.some.inj first]
  rfl

theorem DigitsText.read (digits : DigitsText negative x cs) : ofUnsignedDigits? negative cs = some x := by
  cases digits with
  | @plain whole exponent text nonempty written =>
      have some : whole.isEmpty = false := by simpa using nonempty
      have stop := written.noFraction
      rw [ofUnsignedDigits?, takeDigits_append whole stop.noDigit]
      dsimp only
      split
      · exact absurd rfl (stop '.' rfl).2
      · simp only [some, readExponent_eq_some_iff.mpr written, Bool.false_and, Bool.false_eq_true,
          if_false]
  | @pointed whole fraction exponent text nonempty written =>
      have some : (whole.isEmpty && fraction.isEmpty) = false := by simpa using nonempty
      rw [ofUnsignedDigits?, takeDigits_append whole (noDigit_point _)]
      simp only [takeDigits_append fraction written.noFraction.noDigit, some,
        readExponent_eq_some_iff.mpr written, Bool.false_eq_true, if_false]

theorem digitsText_of_eq_some (read : ofUnsignedDigits? negative cs = some x) :
    DigitsText negative x cs := by
  rw [ofUnsignedDigits?] at read
  rcases taken : takeDigits cs with ⟨whole, rest⟩
  obtain ⟨rfl, -⟩ := takeDigits_eq_iff.mp taken
  simp only [taken] at read
  split at read
  · rename_i behind
    rcases back : takeDigits behind with ⟨fraction, text⟩
    obtain ⟨rfl, -⟩ := takeDigits_eq_iff.mp back
    simp only [back] at read
    split at read
    · cases read
    · rename_i nonempty
      split at read
      · rename_i power
        rw [← Option.some.inj read]
        exact .pointed (by simpa using nonempty) (readExponent_eq_some_iff.mp power)
      · cases read
  · dsimp only at read
    split at read
    · cases read
    · rename_i nonempty
      split at read
      · rename_i power
        rw [← Option.some.inj read]
        exact .plain (by simpa using nonempty) (readExponent_eq_some_iff.mp power)
      · cases read

end Digits

/-- A word of letters begins with no sign. -/
theorem noSign_word {word : List Char} {c : Char} {letters : List Char}
    (same : word.map Char.toLower = c :: letters) (letter : c ≠ '-' ∧ c ≠ '+') : Numeral.NoSign word := by
  cases word with
  | nil => cases same
  | cons first word =>
      rw [List.map_cons, List.cons.injEq] at same
      intro other head
      obtain rfl := Option.some.inj head
      rw [← same.1] at letter
      exact ⟨fun minus => letter.1 (by rw [minus]; rfl), fun plus => letter.2 (by rw [plus]; rfl)⟩

/-- What a number in digits begins with is neither a sign nor a letter. -/
theorem noLetter_first {c : Char} (h : c = '.' ∨ ∃ d, c = Numeral.digitChar d) :
    (c ≠ '-' ∧ c ≠ '+') ∧ c.toLower ≠ 'i' ∧ c.toLower ≠ 'n' := by
  rcases h with rfl | ⟨d, rfl⟩
  · decide
  · revert d
    decide

theorem ofList_eq_iff {cs : List Char} {word : String} : String.ofList cs = word ↔ cs = word.toList := by
  rw [← String.toList_inj, String.toList_ofList]

/-- A text is taken for a number exactly if it is one in loose notation. -/
theorem ofLoose?_eq_some_iff {s : String} {x : Binary64} :
    ofLoose? s = some x ↔ Typed x s.toList := by
  unfold ofLoose?
  simp only [ofList_eq_iff]
  constructor
  · intro read
    obtain ⟨sign, signed, text⟩ := Numeral.exists_sign s.toList
    rw [text]
    split at read
    · rename_i word
      rw [← Option.some.inj read]
      exact .infinity signed word
    split at read
    · rename_i word
      rw [← Option.some.inj read]
      exact .nan signed word
    · exact .digits signed (digitsText_of_eq_some read)
  · generalize s.toList = cs
    intro typed
    cases typed with
    | infinity signed word =>
        have unsigned := word.elim (noSign_word · (by decide)) (noSign_word · (by decide))
        rw [Numeral.takeSign_append signed unsigned]
        exact if_pos word
    | nan signed word =>
        rw [Numeral.takeSign_append signed (noSign_word word (by decide))]
        simp only [word]
        rfl
    | @digits negative _ body _ signed digits =>
        have read := digits.read
        obtain ⟨c, tail, rfl, first⟩ := digits.first
        obtain ⟨unsigned, i, n⟩ := noLetter_first first
        have noSign : Numeral.NoSign (c :: tail) := fun other head => Option.some.inj head ▸ unsigned
        have noInf : ¬((c :: tail).map Char.toLower = "inf".toList ∨
            (c :: tail).map Char.toLower = "infinity".toList) := by
          rintro (same | same) <;> exact i (List.cons.inj same).1
        have noNaN : (c :: tail).map Char.toLower ≠ "nan".toList := fun same => n (List.cons.inj same).1
        rw [Numeral.takeSign_append signed noSign]
        simp only [if_neg noInf, if_neg noNaN, read]

/-- An integer is a number in digits without point and power of ten. -/
theorem typed_digits {negative : Bool} {sign : List Char} {digits : List (Fin 10)}
    (signed : Numeral.SignText negative sign) (nonempty : digits ≠ []) :
    Typed (Numeral.toBinary64 ⟨negative, Numeral.ofDigits digits, [], none⟩)
      (sign ++ digits.map Numeral.digitChar) := by
  have typed := Typed.digits signed (.plain nonempty Numeral.ExponentText.none)
  rwa [List.append_nil] at typed

theorem exists_typed_of_integer {n : Int} {cs : List Char} (typed : Integer.Typed n cs) :
    ∃ x, Typed x cs := by
  obtain ⟨negative, sign, digits, signed, nonempty, rfl, _⟩ := Integer.typed_iff.mp typed
  exact ⟨_, typed_digits signed nonempty⟩

/-- Only of zero does the number depend on the sign. -/
theorem typed_of_integer {n : Int} {cs : List Char} (typed : Integer.Typed n cs) (nonzero : n ≠ 0) :
    Typed (Numeral.toBinary64 ⟨n < 0, n.natAbs, [], none⟩) cs := by
  obtain ⟨negative, sign, digits, signed, nonempty, rfl, rfl⟩ := Integer.typed_iff.mp typed
  have number := typed_digits signed nonempty
  cases negative with
  | true =>
      simp only [if_true] at nonzero ⊢
      rw [Int.natAbs_neg, Int.natAbs_natCast, decide_eq_true (by omega)]
      exact number
  | false =>
      simp only [Bool.false_eq_true, if_false] at nonzero ⊢
      rw [Int.natAbs_natCast, decide_eq_false (by omega)]
      exact number

end Binary64

namespace Scalar

theorem looseInt?_of_typed {n : Int} {s : String} (typed : Integer.Typed n s.toList) :
    looseInt? s = Integer.word? n := by
  obtain ⟨negative, sign, digits, signed, nonempty, text, rfl⟩ := Integer.typed_iff.mp typed
  have taken := Numeral.takeDigits_append digits Numeral.ends_nil.noDigit
  rw [List.append_nil] at taken
  rw [looseInt?, text, Numeral.takeSign_digits signed nonempty]
  simp only [taken]

/-- The recogniser of integers takes the texts of those that fit, and no others. -/
theorem looseInt?_eq_some_iff {s : String} {k : Int64} :
    looseInt? s = some k ↔ Integer.Typed k.toInt s.toList := by
  constructor
  · intro read
    obtain ⟨sign, signed, text⟩ := Numeral.exists_sign s.toList
    rw [looseInt?] at read
    rcases taken : Numeral.takeDigits (Binary64.takeSign s.toList).2 with ⟨digits, rest⟩
    obtain ⟨body, -⟩ := Numeral.takeDigits_eq_iff.mp taken
    simp only [taken] at read
    split at read
    · cases read
    · rename_i digits nonempty same
      obtain ⟨rfl, rfl⟩ := Prod.mk.inj same
      rw [body, List.append_nil] at text
      exact Integer.typed_iff.mpr ⟨_, sign, digits, signed, nonempty, text,
        (Integer.word?_eq_some_iff.mp read).symm⟩
    · cases read
  · intro typed
    rw [looseInt?_of_typed typed, Integer.word?_eq_some_iff]

/-- What a text is as a typed scalar, by what is written there. Integers come before numbers. -/
inductive Typed (raw : String) : Scalar → Prop
  | int {k : Int64} : Integer.Typed k.toInt raw.toList → Typed raw (.int k)
  | float {x : Binary64} : Binary64.Typed x raw.toList →
      (∀ k : Int64, ¬Integer.Typed k.toInt raw.toList) → Typed raw (.float x)
  | bool {b : Bool} : raw = (if b then "true" else "false") → Typed raw (.bool b)
  | null : raw = "null" → Typed raw .null
  | string : (∀ x, ¬Binary64.Typed x raw.toList) → raw ∉ ["true", "false", "null"] →
      Typed raw (.string raw)

section Exact

variable {raw : String} {n : Int}

theorem looseInt?_eq_none_iff :
    looseInt? raw = none ↔ ∀ k : Int64, ¬Integer.Typed k.toInt raw.toList := by
  simp only [Option.eq_none_iff_forall_ne_some, ne_eq, looseInt?_eq_some_iff]

theorem ofLoose?_eq_none_iff :
    Binary64.ofLoose? raw = none ↔ ∀ x, ¬Binary64.Typed x raw.toList := by
  simp only [Option.eq_none_iff_forall_ne_some, ne_eq, Binary64.ofLoose?_eq_some_iff]

theorem typed_ofLoose (raw : String) : Typed raw (ofLoose raw) := by
  unfold ofLoose
  cases integer : looseInt? raw with
  | some k => exact .int (looseInt?_eq_some_iff.mp integer)
  | none =>
      cases number : Binary64.ofLoose? raw with
      | some x => exact .float (Binary64.ofLoose?_eq_some_iff.mp number) (looseInt?_eq_none_iff.mp integer)
      | none =>
          have other := ofLoose?_eq_none_iff.mp number
          simp only
          split
          · exact .bool ‹_›
          split
          · exact .bool ‹_›
          split
          · exact .null ‹_›
          · exact .string other (by simp [*])

/-- A typed text becomes what it is, and it is only one scalar. -/
theorem ofLoose_eq_iff {x : Scalar} : ofLoose raw = x ↔ Typed raw x := by
  constructor
  · rintro rfl
    exact typed_ofLoose raw
  · intro typed
    cases typed with
    | int typed => rw [ofLoose, looseInt?_eq_some_iff.mpr typed]
    | float typed noInteger =>
        rw [ofLoose, looseInt?_eq_none_iff.mpr noInteger]
        simp only [Binary64.ofLoose?_eq_some_iff.mpr typed]
    | @bool b word =>
        subst word
        cases b <;> rfl
    | null word =>
        subst word
        rfl
    | string noNumber noWord =>
        have noInteger := looseInt?_eq_none_iff.mpr fun k typed =>
          let ⟨_, number⟩ := Binary64.exists_typed_of_integer typed
          noNumber _ number
        simp only [List.mem_cons, List.not_mem_nil, or_false, not_or] at noWord
        rw [ofLoose, noInteger]
        simp only [ofLoose?_eq_none_iff.mpr noNumber, noWord, if_false]

/-- An integer that does not fit into 64 bits is the float nearest to it. -/
theorem ofLoose_of_outside (typed : Integer.Typed n raw.toList)
    (outside : n < Int64.minValue.toInt ∨ Int64.maxValue.toInt < n) :
    ofLoose raw = .float (Numeral.toBinary64 ⟨n < 0, n.natAbs, [], none⟩) := by
  have negative : Int64.minValue.toInt < 0 := by decide
  have positive : 0 < Int64.maxValue.toInt := by decide
  refine ofLoose_eq_iff.mpr (.float (Binary64.typed_of_integer typed (by omega)) ?_)
  intro k fitting
  have low := k.minValue_le_toInt
  have high := k.toInt_le
  rw [typed.unique fitting] at outside
  omega

/-- The literal of an integer is typed for it. -/
theorem ofLoose_literal (k : Int64) : ofLoose (Scalar.int k).literal = .int k := by
  refine ofLoose_eq_iff.mpr (.int ?_)
  rw [toList_literal]
  exact Integer.typed_chars k.toInt

end Exact

/-- A typed text is taken for an integer exactly if it is one and fits into 64 bits; one that does not fit
is a float. A text that stays a string is not altered, and it is neither an integer nor a number nor one of
the three words. The literal of every integer is taken for that integer. -/
theorem ofLoose_exact :
    (∀ (raw : String) (k : Int64), ofLoose raw = .int k ↔ Integer.Typed k.toInt raw.toList) ∧
    (∀ (raw : String) (n : Int), Integer.Typed n raw.toList →
      n < Int64.minValue.toInt ∨ Int64.maxValue.toInt < n →
      ofLoose raw = .float (Numeral.toBinary64 ⟨n < 0, n.natAbs, [], none⟩)) ∧
    (∀ raw s : String, ofLoose raw = .string s ↔
      s = raw ∧ (∀ n, ¬Integer.Typed n raw.toList) ∧ (∀ x, ¬Binary64.Typed x raw.toList) ∧
        raw ∉ ["true", "false", "null"]) ∧
    ∀ k : Int64, ofLoose (Scalar.int k).literal = .int k := by
  refine ⟨fun raw k => ?_, fun _ _ => ofLoose_of_outside, fun raw s => ?_, ofLoose_literal⟩
  · rw [ofLoose_eq_iff]
    exact ⟨fun | .int typed => typed, .int⟩
  · rw [ofLoose_eq_iff]
    constructor
    · rintro ⟨⟩
      rename_i noNumber noWord
      refine ⟨rfl, fun n typed => ?_, noNumber, noWord⟩
      obtain ⟨x, number⟩ := Binary64.exists_typed_of_integer typed
      exact noNumber x number
    · rintro ⟨rfl, _, noNumber, noWord⟩
      exact .string noNumber noWord

/-- One below the least integer, and the greatest one behind a sign and zeros. -/
theorem ofLoose_exact_limits :
    Integer.Typed (-9223372036854775809) "-9223372036854775809".toList ∧
      ofLoose "-9223372036854775809" = .float ⟨0xC3E0000000000000⟩ ∧
      ofLoose "+009223372036854775807" = .int Int64.maxValue := by
  have below : Integer.Typed (-9223372036854775809) "-9223372036854775809".toList :=
    ⟨true, ['-'], "9223372036854775809".toList, .minus, by decide, List.all_eq_true.mp rfl, rfl,
      by decide⟩
  have greatest : Integer.Typed Int64.maxValue.toInt "+009223372036854775807".toList :=
    ⟨false, ['+'], "009223372036854775807".toList, .plus, by decide, List.all_eq_true.mp rfl, rfl,
      by decide⟩
  refine ⟨below, ?_, (ofLoose_exact.1 _ _).mpr greatest⟩
  rw [ofLoose_exact.2.1 _ _ below (.inl (by decide))]
  decide +kernel

end Scalar
end CqlStatements
