import CqlStatements.Json.Reader
import CqlStatements.Proofs.Numerals

/-!
# Numerals of JSON

A grammar says which texts spell a numeral: whole parts have no leading zeros, digits stand behind a point,
and a power of ten has any of its forms. What spells a numeral is read as this numeral, whatever comes
behind it, as long as that cannot be taken for a part of the numeral; and nothing else is read. The text
that is written for a numeral is one of those that spell it.
-/
namespace CqlStatements.Numeral

/-- A text spells a numeral. -/
def Spelled (n : Numeral) (cs : List Char) : Prop :=
  ∃ exponent, ExponentText n.exponent exponent ∧ cs =
    (if n.negative then ['-'] else []) ++
      (Nat.toDigits 10 n.whole ++ (fractionChars n.fraction ++ exponent))

section Parts

theorem noDigit_fraction (digits : List (Fin 10)) {rest : List Char} (h : NoFraction rest) :
    NoDigit (fractionChars digits ++ rest) := by
  cases digits with
  | nil => exact h.noDigit
  | cons d digits =>
      intro c first
      simp only [fractionChars, List.cons_append, List.head?_cons, Option.some.injEq] at first
      subst first
      decide

theorem readWhole_append (n : Nat) {rest : List Char} (h : NoDigit rest) :
    Json.readWhole (Nat.toDigits 10 n ++ rest) = some (n, rest) := by
  obtain ⟨first, more, text, value, leading⟩ := exists_digits n
  rw [text, Json.readWhole, takeDigits_append _ h]
  have written : ¬ (first.val = 0 ∧ more ≠ []) := by
    rintro ⟨zero, others⟩
    exact others (leading zero)
  simp only [if_neg written, value]

theorem eq_of_readWhole {cs rest : List Char} {n : Nat} (read : Json.readWhole cs = some (n, rest)) :
    cs = Nat.toDigits 10 n ++ rest := by
  unfold Json.readWhole at read
  split at read
  · cases read
  · rename_i first more behind taken
    split at read
    · cases read
    · rename_i written
      obtain ⟨rfl, rfl⟩ := Prod.mk.inj (Option.some.inj read)
      have leading : first.val = 0 → more = [] := fun zero =>
        Decidable.byContradiction fun others => written ⟨zero, others⟩
      rw [toDigits_ofDigits leading]
      exact (takeDigits_eq_iff.mp taken).1

theorem readFraction_append (digits : List (Fin 10)) {rest : List Char} (h : NoFraction rest) :
    Json.readFraction (fractionChars digits ++ rest) = some (digits, rest) := by
  cases digits with
  | nil =>
      cases rest with
      | nil => rfl
      | cons c cs =>
          have other : c ≠ '.' := (h c rfl).2
          simp only [fractionChars, List.nil_append, Json.readFraction]
          split
          · rename_i same
            exact absurd (List.cons.inj same).1 other
          · rfl
  | cons d digits =>
      simp only [fractionChars, List.cons_append, Json.readFraction]
      rw [takeDigits_append _ h.noDigit]

theorem eq_of_readFraction {cs rest : List Char} {digits : List (Fin 10)}
    (read : Json.readFraction cs = some (digits, rest)) : cs = fractionChars digits ++ rest := by
  unfold Json.readFraction at read
  split at read
  · split at read
    · cases read
    · rename_i nonempty
      have taken := Option.some.inj read
      cases digits with
      | nil => exact absurd taken (nonempty rest)
      | cons d digits => exact congrArg ('.' :: ·) (takeDigits_eq_iff.mp taken).1
  · obtain ⟨rfl, rfl⟩ := Prod.mk.inj (Option.some.inj read)
    rfl

end Parts

section Written

theorem exponentText_exponentChars (e : Option Int) : ExponentText e (exponentChars e) := by
  cases e with
  | none => exact .none
  | some e =>
      obtain ⟨first, more, text, value, -⟩ := exists_digits e.natAbs
      rw [exponentChars, text]
      by_cases negative : e < 0
      · have same : e = if true then -(ofDigits (first :: more) : Int) else ofDigits (first :: more) := by
          rw [if_pos rfl, value]
          omega
        rw [if_pos negative, same]
        exact .some (.inl rfl) .minus (List.cons_ne_nil _ _)
      · have same : e = if false then -(ofDigits (first :: more) : Int) else ofDigits (first :: more) := by
          rw [if_neg Bool.false_ne_true, value]
          omega
        rw [if_neg negative, same]
        exact .some (.inl rfl) .plus (List.cons_ne_nil _ _)

theorem spelled_chars (n : Numeral) : n.Spelled n.chars :=
  ⟨exponentChars n.exponent, exponentText_exponentChars n.exponent, by
    simp only [chars, List.append_assoc]⟩

end Written

variable {n : Numeral} {cs rest : List Char}

/-- A numeral begins with its sign or with a digit. -/
theorem Spelled.first (spelled : n.Spelled cs) :
    ∃ c tail, cs = c :: tail ∧ (c = '-' ∨ ∃ d, c = digitChar d) := by
  obtain ⟨exponent, _, rfl⟩ := spelled
  obtain ⟨d, tail, first⟩ := exists_unsigned_eq n.whole (fractionChars n.fraction ++ exponent)
  cases n.negative with
  | true => exact ⟨'-', _, rfl, .inl rfl⟩
  | false => exact ⟨digitChar d, tail, first, .inr ⟨d, rfl⟩⟩

theorem Spelled.read_append (spelled : n.Spelled cs) (h : Ends rest) :
    Json.readNumeral (cs ++ rest) = some (n, rest) := by
  obtain ⟨negative, whole, fraction, e⟩ := n
  obtain ⟨exponent, written, rfl⟩ := spelled
  have stop := noFraction_exponent written h
  have readWhole := readWhole_append whole (noDigit_fraction fraction stop)
  have readFraction := readFraction_append fraction stop
  have readExponent := readExponent_append written h
  cases negative with
  | true =>
      simp only [if_true, List.cons_append, List.nil_append, Json.readNumeral, List.append_assoc,
        readWhole, readFraction, readExponent, Option.bind_eq_bind, Option.bind_some]
  | false =>
      have digit : ∀ d : Fin 10, digitChar d ≠ '-' := by decide
      obtain ⟨d, tail, first⟩ := exists_unsigned_eq whole (fractionChars fraction ++ (exponent ++ rest))
      simp only [Bool.false_eq_true, if_false, List.nil_append, List.append_assoc]
      rw [Json.readNumeral]
      · simp only [readWhole, readFraction, readExponent, Option.bind_eq_bind, Option.bind_some]
      · intro cs same
        rw [first] at same
        exact digit d (List.cons.inj same).1

theorem spelled_of_unsigned (negative : Bool) {body : List Char}
    (read : (do
      let (whole, cs) ← Json.readWhole body
      let (fraction, cs) ← Json.readFraction cs
      let (exponent, cs) ← readExponent cs
      some ((⟨negative, whole, fraction, exponent⟩ : Numeral), cs)) = some (n, rest)) :
    ∃ text, n.Spelled ((if negative then ['-'] else []) ++ text) ∧ body = text ++ rest := by
  obtain ⟨⟨whole, behind⟩, readWhole, read⟩ := Option.bind_eq_some_iff.mp read
  obtain ⟨⟨fraction, behind'⟩, readFraction, read⟩ := Option.bind_eq_some_iff.mp read
  obtain ⟨⟨exponent, behind''⟩, readExponent, read⟩ := Option.bind_eq_some_iff.mp read
  obtain ⟨rfl, rfl⟩ := Prod.mk.inj (Option.some.inj read)
  obtain ⟨text, written, rfl⟩ := exponentText_of_readExponent readExponent
  refine ⟨_, ⟨text, written, rfl⟩, ?_⟩
  rw [eq_of_readWhole readWhole, eq_of_readFraction readFraction]
  simp only [List.append_assoc]

theorem spelled_of_readNumeral (read : Json.readNumeral cs = some (n, rest)) :
    ∃ text, n.Spelled text ∧ cs = text ++ rest := by
  by_cases minus : ∃ body, cs = '-' :: body
  · obtain ⟨body, rfl⟩ := minus
    obtain ⟨text, spelled, rfl⟩ := spelled_of_unsigned true read
    exact ⟨'-' :: text, spelled, rfl⟩
  · rw [Json.readNumeral] at read
    · exact spelled_of_unsigned false read
    · exact fun body same => minus ⟨body, same⟩

end CqlStatements.Numeral
