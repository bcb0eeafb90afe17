import CqlStatements.Binary64
import CqlStatements.Numeral
import Mathlib.Data.List.Induction
import Mathlib.Data.Nat.Notation

/-!
# Digits, signs and powers of ten

Digits are taken as far as they go, whatever their number and their leading zeros. A row without leading
zeros is the decimal text of the number that it stands for. A power of ten may be written in several ways,
and the reader takes just these.
-/
namespace CqlStatements

/-- An integer fits into 64 bits exactly if it is the value of a word. -/
theorem Integer.word?_eq_some_iff {n : Int} {k : Int64} : word? n = some k ↔ n = k.toInt := by
  unfold word?
  constructor
  · intro h
    split at h
    · rename_i range
      rw [← Option.some.inj h, Int64.toInt_ofInt_of_le range.1 (Int.lt_add_one_of_le range.2)]
    · cases h
  · rintro rfl
    rw [if_pos ⟨k.minValue_le_toInt, k.toInt_le⟩, Int64.ofInt_toInt]

namespace Numeral

section Digits

/-- Text in front of which a row of digits ends. -/
def NoDigit (rest : List Char) : Prop := ∀ c, rest.head? = some c → digit? c = none

theorem takeDigits_of_noDigit {rest : List Char} (h : NoDigit rest) : takeDigits rest = ([], rest) := by
  cases rest with
  | nil => rfl
  | cons c cs =>
      have other : digit? c = none := h c rfl
      simp only [takeDigits, other]

theorem takeDigits_append (digits : List (Fin 10)) {rest : List Char} (h : NoDigit rest) :
    takeDigits (digits.map digitChar ++ rest) = (digits, rest) := by
  induction digits with
  | nil => exact takeDigits_of_noDigit h
  | cons d digits ih =>
      simp only [List.map_cons, List.cons_append, takeDigits, digit?_digitChar, ih]

/-- A digit has one character. -/
theorem eq_digitChar_of_digit? {c : Char} {d : Fin 10} (h : digit? c = some d) : c = digitChar d := by
  have table : ∀ k : Fin 10, Char.ofNat (48 + k.val) = digitChar (Fin.ofNat 10 (48 + k.val - 48)) := by
    decide
  unfold digit? at h
  split at h
  · rename_i digit
    have range : 48 ≤ c.toNat ∧ c.toNat ≤ 57 := by
      simpa [Char.isDigit, Char.le_def, UInt32.le_iff_toNat_le] using digit
    have shifted : 48 + (c.toNat - 48) = c.toNat := by omega
    have known := table ⟨c.toNat - 48, by omega⟩
    rw [shifted, Char.ofNat_toNat, Option.some.inj h] at known
    exact known
  · cases h

theorem takeDigits_eq_iff {cs rest : List Char} {digits : List (Fin 10)} :
    takeDigits cs = (digits, rest) ↔ cs = digits.map digitChar ++ rest ∧ NoDigit rest := by
  constructor
  · intro taken
    induction cs generalizing digits with
    | nil =>
        obtain ⟨rfl, rfl⟩ := Prod.mk.inj taken
        exact ⟨rfl, nofun⟩
    | cons c cs ih =>
        rw [takeDigits] at taken
        cases digit : digit? c with
        | none =>
            rw [digit] at taken
            obtain ⟨rfl, rfl⟩ := Prod.mk.inj taken
            refine ⟨rfl, fun first same => ?_⟩
            rw [← Option.some.inj same, digit]
        | some d =>
            rw [digit] at taken
            obtain ⟨rfl, behind⟩ := Prod.mk.inj taken
            obtain ⟨text, stop⟩ := ih (Prod.ext rfl behind)
            refine ⟨?_, stop⟩
            rw [List.map_cons, List.cons_append, ← eq_digitChar_of_digit? digit, ← text]
  · rintro ⟨rfl, stop⟩
    exact takeDigits_append digits stop

theorem ofDigits_concat (digits : List (Fin 10)) (d : Fin 10) :
    ofDigits (digits ++ [d]) = 10 * ofDigits digits + d.val := by
  simp only [ofDigits, List.foldl_append, List.foldl_cons, List.foldl_nil]

/-- The decimal text of a number is a row of digits without leading zeros. -/
theorem exists_digits (n : Nat) : ∃ first more, Nat.toDigits 10 n = (first :: more).map digitChar ∧
    ofDigits (first :: more) = n ∧ (first.val = 0 → more = []) := by
  induction n using Nat.strongRecOn with
  | ind n ih =>
      by_cases small : n < 10
      · refine ⟨⟨n, small⟩, [], Nat.toDigits_of_lt_base small, ?_, fun _ => rfl⟩
        simp [ofDigits]
      · obtain ⟨first, more, text, value, leading⟩ := ih (n / 10) (by omega)
        refine ⟨first, more ++ [⟨n % 10, by omega⟩], ?_, ?_, ?_⟩
        · rw [Nat.toDigits_of_base_le (by decide) (by omega), text, ← List.cons_append,
            List.map_append]
          rfl
        · rw [← List.cons_append, ofDigits_concat, value]
          exact Nat.div_add_mod n 10
        · intro zero
          rw [leading zero] at value
          have : n / 10 = 0 := by rw [← value]; simp [ofDigits, zero]
          omega

theorem isDigit_digitChar (d : Fin 10) : (digitChar d).isDigit = true := by
  revert d
  decide

/-- A row of digits is worth the same, taken as digits or as characters. -/
theorem ofDigitChars_map (digits : List (Fin 10)) :
    Nat.ofDigitChars 10 (digits.map digitChar) 0 = ofDigits digits := by
  have value : ∀ d : Fin 10, (digitChar d).toNat - '0'.toNat = d.val := by decide
  simp only [Nat.ofDigitChars_eq_foldl, ofDigits, List.foldl_map, value]

theorem exists_digits_of_isDigit {cs : List Char} (h : ∀ c ∈ cs, c.isDigit = true) :
    ∃ digits : List (Fin 10), cs = digits.map digitChar := by
  have taken : ∀ c : Char, c.isDigit = true → ∃ d, c = digitChar d := fun c digit =>
    ⟨_, eq_digitChar_of_digit? (if_pos digit)⟩
  induction cs with
  | nil => exact ⟨[], rfl⟩
  | cons c cs ih =>
      obtain ⟨d, rfl⟩ := taken c (h c List.mem_cons_self)
      obtain ⟨digits, rfl⟩ := ih fun other mem => h other (List.mem_cons_of_mem _ mem)
      exact ⟨d :: digits, rfl⟩

theorem ofDigits_pos {first : Fin 10} (some : first.val ≠ 0) (more : List (Fin 10)) :
    0 < ofDigits (first :: more) := by
  induction more using List.reverseRecOn with
  | nil => simpa [ofDigits] using Nat.pos_of_ne_zero some
  | append_singleton more d ih =>
      rw [← List.cons_append, ofDigits_concat]
      omega

/-- A row of digits without leading zeros is the decimal text of its number. -/
theorem toDigits_ofDigits {first : Fin 10} {more : List (Fin 10)} (leading : first.val = 0 → more = []) :
    Nat.toDigits 10 (ofDigits (first :: more)) = (first :: more).map digitChar := by
  induction more using List.reverseRecOn with
  | nil =>
      have value : ofDigits [first] = first.val := by simp [ofDigits]
      rw [value, Nat.toDigits_of_lt_base first.isLt]
      rfl
  | append_singleton more d ih =>
      have some : first.val ≠ 0 := fun zero => by simpa using leading zero
      have pos := ofDigits_pos some more
      have front := ih fun zero => absurd zero some
      have quotient : (10 * ofDigits (first :: more) + d.val) / 10 = ofDigits (first :: more) := by omega
      have rest : (10 * ofDigits (first :: more) + d.val) % 10 = d.val := by omega
      rw [← List.cons_append, ofDigits_concat, Nat.toDigits_of_base_le (by decide) (by omega), quotient,
        rest, front, List.map_append]
      rfl

theorem exists_unsigned_eq (whole : Nat) (behind : List Char) :
    ∃ d tail, Nat.toDigits 10 whole ++ behind = digitChar d :: tail := by
  obtain ⟨first, more, text, _, _⟩ := exists_digits whole
  exact ⟨first, _, by rw [text, List.map_cons, List.cons_append]⟩

/-- A written numeral begins with its sign or with a digit. -/
theorem exists_chars_eq (n : Numeral) :
    ∃ c cs, n.chars = c :: cs ∧ (c = '-' ∨ ∃ d, c = digitChar d) := by
  obtain ⟨d, tail, first⟩ :=
    exists_unsigned_eq n.whole (fractionChars n.fraction ++ exponentChars n.exponent)
  rw [chars, List.append_assoc, List.append_assoc, first]
  cases n.negative with
  | true => exact ⟨'-', _, rfl, .inl rfl⟩
  | false => exact ⟨digitChar d, tail, rfl, .inr ⟨d, rfl⟩⟩

end Digits

section Signs

/-- A sign as it may be written, and whether it is a minus. -/
inductive SignText : Bool → List Char → Prop
  | none : SignText false []
  | plus : SignText false ['+']
  | minus : SignText true ['-']

/-- Text that does not begin with a sign. -/
def NoSign (body : List Char) : Prop := ∀ c, body.head? = some c → c ≠ '-' ∧ c ≠ '+'

theorem noSign_digits {digits : List (Fin 10)} (nonempty : digits ≠ []) (rest : List Char) :
    NoSign (digits.map digitChar ++ rest) := by
  have digit : ∀ d : Fin 10, digitChar d ≠ '-' ∧ digitChar d ≠ '+' := by decide
  cases digits with
  | nil => exact absurd rfl nonempty
  | cons d digits =>
      intro c first
      rw [← Option.some.inj first]
      exact digit d

theorem takeSign_append {negative : Bool} {sign body : List Char} (signed : SignText negative sign)
    (unsigned : NoSign body) : Binary64.takeSign (sign ++ body) = (negative, body) := by
  cases signed with
  | plus | minus => rfl
  | none =>
      rw [List.nil_append, Binary64.takeSign.eq_def]
      split
      · exact absurd rfl (unsigned '-' rfl).1
      · exact absurd rfl (unsigned '+' rfl).2
      · rfl

/-- Digits fill the whole text behind their sign. -/
theorem takeSign_digits {negative : Bool} {sign : List Char} {digits : List (Fin 10)}
    (signed : SignText negative sign) (nonempty : digits ≠ []) :
    Binary64.takeSign (sign ++ digits.map digitChar) = (negative, digits.map digitChar) := by
  have unsigned := noSign_digits nonempty []
  rw [List.append_nil] at unsigned
  exact takeSign_append signed unsigned

theorem exists_sign (cs : List Char) : ∃ sign, SignText (Binary64.takeSign cs).1 sign ∧
    cs = sign ++ (Binary64.takeSign cs).2 := by
  unfold Binary64.takeSign
  split
  · exact ⟨['-'], .minus, rfl⟩
  · exact ⟨['+'], .plus, rfl⟩
  · exact ⟨[], .none, rfl⟩

end Signs

section Exponents

/-- A power of ten as it may be written: not at all, or as a letter e, a sign and digits. -/
inductive ExponentText : Option Int → List Char → Prop
  | none : ExponentText none []
  | some {negative : Bool} {letter : Char} {sign : List Char} {digits : List (Fin 10)} :
      letter = 'e' ∨ letter = 'E' → SignText negative sign → digits ≠ [] →
      ExponentText (some (if negative then -ofDigits digits else ofDigits digits))
        (letter :: (sign ++ digits.map digitChar))

/-- Text in front of which a numeral ends. -/
def Ends (rest : List Char) : Prop :=
  ∀ c, rest.head? = some c → digit? c = none ∧ c ≠ '.' ∧ c ≠ 'e' ∧ c ≠ 'E'

theorem Ends.noDigit {rest : List Char} (h : Ends rest) : NoDigit rest := fun c first => (h c first).1

theorem ends_nil : Ends [] := nofun

/-- Behind its letter a power of ten is read by its sign. -/
theorem readExponent_letter {letter : Char} (h : letter = 'e' ∨ letter = 'E') (cs : List Char) :
    readExponent (letter :: cs) =
      (let (negative, body) := Binary64.takeSign cs
      let (digits, rest) := takeDigits body
      if digits.isEmpty then none
      else some (some (if negative then -(ofDigits digits : Int) else ofDigits digits), rest)) := by
  rw [readExponent.eq_def]
  exact if_pos h

theorem readExponent_append {e : Option Int} {text rest : List Char} (written : ExponentText e text)
    (stop : Ends rest) : readExponent (text ++ rest) = some (e, rest) := by
  cases written with
  | none =>
      cases rest with
      | nil => rfl
      | cons c cs =>
          obtain ⟨_, _, lower, upper⟩ := stop c rfl
          simp only [List.nil_append, readExponent, lower, upper, or_self, if_false]
  | some letter signed nonempty =>
      rw [List.cons_append, readExponent_letter letter, List.append_assoc,
        takeSign_append signed (noSign_digits nonempty rest)]
      simp only [takeDigits_append _ stop.noDigit, List.isEmpty_iff, nonempty, if_false]

/-- Text in front of which the digits behind a point end, or in which no point follows. -/
def NoFraction (rest : List Char) : Prop :=
  ∀ c, rest.head? = some c → digit? c = none ∧ c ≠ '.'

theorem NoFraction.noDigit {rest : List Char} (h : NoFraction rest) : NoDigit rest :=
  fun c first => (h c first).1

theorem noFraction_exponent {e : Option Int} {text : List Char} (written : ExponentText e text)
    {rest : List Char} (h : Ends rest) : NoFraction (text ++ rest) := by
  cases written with
  | none => exact fun c first => ⟨(h c first).1, (h c first).2.1⟩
  | some letter _ _ =>
      intro c first
      obtain rfl := Option.some.inj first
      rcases letter with rfl | rfl <;> decide

theorem exponentText_of_readExponent {cs rest : List Char} {e : Option Int}
    (read : readExponent cs = some (e, rest)) : ∃ text, ExponentText e text ∧ cs = text ++ rest := by
  cases cs with
  | nil =>
      obtain ⟨rfl, rfl⟩ := Prod.mk.inj (Option.some.inj read)
      exact ⟨[], .none, rfl⟩
  | cons c cs =>
      by_cases letter : c = 'e' ∨ c = 'E'
      · obtain ⟨sign, signed, split⟩ := exists_sign cs
        rw [readExponent_letter letter] at read
        rcases taken : takeDigits (Binary64.takeSign cs).2 with ⟨digits, behind⟩
        obtain ⟨text, -⟩ := takeDigits_eq_iff.mp taken
        simp only [taken, List.isEmpty_iff] at read
        split at read
        · cases read
        · rename_i nonempty
          obtain ⟨rfl, rfl⟩ := Prod.mk.inj (Option.some.inj read)
          refine ⟨c :: (sign ++ digits.map digitChar), .some letter signed nonempty, ?_⟩
          rw [List.cons_append, List.append_assoc, ← text, ← split]
      · rw [readExponent.eq_def] at read
        dsimp only at read
        rw [if_neg letter] at read
        obtain ⟨rfl, rfl⟩ := Prod.mk.inj (Option.some.inj read)
        exact ⟨[], .none, rfl⟩

theorem ExponentText.noFraction {e : Option Int} {text : List Char} (written : ExponentText e text) :
    NoFraction text := by
  have stop := noFraction_exponent written ends_nil
  rwa [List.append_nil] at stop

/-- A power of ten that fills the text. -/
theorem readExponent_eq_some_iff {e : Option Int} {text : List Char} :
    readExponent text = some (e, []) ↔ ExponentText e text := by
  constructor
  · intro read
    obtain ⟨text, written, rfl⟩ := exponentText_of_readExponent read
    rwa [List.append_nil]
  · intro written
    have read := readExponent_append written ends_nil
    rwa [List.append_nil] at read

end Exponents

end Numeral
end CqlStatements
