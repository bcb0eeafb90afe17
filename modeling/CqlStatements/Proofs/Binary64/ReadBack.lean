import CqlStatements.Json
import CqlStatements.Proofs.Binary64.Shortest

/-!
# Numbers written and read back

The two notations of a float write the same decimal, and a point that is added changes nothing of it. So
a finite float that is written in digits is read back as the same word, the sign of zero included. The
point or the power of ten keeps floats apart from integers, and those of 64 bits come back as well.
-/
namespace CqlStatements

namespace Numeral

/-- What a numeral is worth without its sign. -/
def value (n : Numeral) : ℚ := n.coefficient * 10 ^ n.scale

theorem value_withPoint (n : Numeral) : n.withPoint.value = n.value := by
  unfold withPoint
  split
  · rename_i none
    obtain ⟨negative, whole, fraction, exponent⟩ := n
    obtain rfl : fraction = [] := List.isEmpty_iff.mp none
    have ten : (10 : ℚ) ≠ 0 := by norm_num
    simp only [value, coefficient, scale, List.length_nil, List.length_singleton, Nat.cast_zero,
      Nat.cast_one, sub_zero, zpow_sub_one₀ ten]
    simp [ofDigits, zeroDigit]
    ring
  · rfl

end Numeral

namespace Binary64.Decimal

def value (d : Decimal) : ℚ := d.digits * 10 ^ d.exponent

/-- The digits of a number, cut at a place, are still the digits of this number. -/
theorem coefficient_cut (negative : Bool) (places n : Nat) (exponent : Option ℤ) :
    (⟨negative, n / Nat.pow 10 places, Numeral.lowDigits places n, exponent⟩ : Numeral).coefficient =
      n := by
  rw [Numeral.coefficient, Numeral.length_lowDigits, Numeral.ofDigits_lowDigits]
  exact Nat.div_add_mod' n _

theorem value_positional (negative : Bool) (d : Decimal) :
    (d.positional negative).value = d.value := by
  have scale : (d.positional negative).scale = -((-d.exponent).toNat : ℤ) := by
    rw [Numeral.scale, positional, Numeral.length_lowDigits]
    simp
  rw [Numeral.value, scale, positional, coefficient_cut, value]
  cases d.exponent with
  | ofNat k => simp
  | negSucc k =>
      have places : -((-Int.negSucc k).toNat : ℤ) = Int.negSucc k := rfl
      rw [places]
      simp

theorem value_scientific (negative : Bool) (d : Decimal) :
    (d.scientific negative).value = d.value := by
  have scale : (d.scientific negative).scale = d.exponent := by
    rw [Numeral.scale, scientific, Numeral.length_lowDigits]
    simp
  rw [Numeral.value, scale, scientific, coefficient_cut, value]

end Binary64.Decimal

namespace Binary64

variable {x : Binary64}

theorem magnitude_of_isZero (h : x.isZero = true) : x.magnitude = 0 := by
  simp only [isZero, Bool.and_eq_true, beq_iff_eq] at h
  rw [magnitude, h.1, h.2]
  rfl

/-- A numeral that is worth what a number's shortest decimal is worth is read as this number. -/
theorem toBinary64_of_value (finite : x.isFinite = true) (nonzero : x.isZero = false) {tie : Tie}
    {n : Numeral} (sign : n.negative = x.isNegative) (value : n.value = (x.shortest tie).value) :
    n.toBinary64 = x := by
  have rounds : x.Rounds n.value := value ▸ rounds_shortest finite nonzero tie
  rw [Numeral.toBinary64, sign]
  exact ofDecimal_of_rounds finite nonzero rounds

/-- Of a zero only the sign is left. -/
theorem ofMagnitude_of_isZero (h : x.isZero = true) : ofMagnitude x.isNegative 0 = x := by
  have word := ofMagnitude_magnitude x
  rw [magnitude_of_isZero h] at word
  exact word

theorem toBinary64_withPoint (finite : x.isFinite = true) (nonzero : x.isZero = false) (tie : Tie) :
    ((x.shortest tie).positional x.isNegative).withPoint.toBinary64 = x := by
  refine toBinary64_of_value finite nonzero ?_
    ((Numeral.value_withPoint _).trans (Decimal.value_positional _ _))
  unfold Numeral.withPoint
  split <;> rfl

theorem toBinary64_numeralOfFloat (finite : x.isFinite = true) :
    (Json.numeralOfFloat x).toBinary64 = x := by
  unfold Json.numeralOfFloat
  split
  · rename_i zero
    exact ofMagnitude_of_isZero zero
  · rename_i some
    have nonzero : x.isZero = false := Bool.eq_false_iff.mpr some
    dsimp only
    split
    · exact toBinary64_withPoint finite nonzero _
    · exact toBinary64_of_value finite nonzero rfl (Decimal.value_scientific _ _)

theorem toBinary64_positional (finite : x.isFinite = true) :
    x.positional.withPoint.toBinary64 = x := by
  unfold positional
  split
  · rename_i zero
    exact ofMagnitude_of_isZero zero
  · rename_i some
    exact toBinary64_withPoint finite (Bool.eq_false_iff.mpr some) _

end Binary64

namespace Json

theorem number?_numeralOfInt {n : Int} (low : Int64.minValue.toInt ≤ n) (high : n < UInt64.size) :
    number? (numeralOfInt n) = some (.integer n) := by
  have value : (if n < 0 then -(n.natAbs : Int) else (n.natAbs : Int)) = n := by omega
  have noNegativeZero : (decide (n < 0) && n.natAbs == 0) = false := by
    by_cases zero : n.natAbs = 0
    · have : ¬ n < 0 := by omega
      simp [this]
    · simp [zero]
  simp only [number?, numeralOfInt, List.isEmpty_nil, Option.isNone_none, Bool.true_and,
    decide_eq_true_eq, value, noNegativeZero, Bool.not_false, low, high, and_self, if_true]

/-- The numeral of a float has a point or a power of ten, so it is never taken for an integer. -/
theorem number?_numeralOfFloat {x : Binary64} (h : x.isFinite = true) :
    number? (numeralOfFloat x) = some (.float x) := by
  have marked :
      ((numeralOfFloat x).fraction.isEmpty && (numeralOfFloat x).exponent.isNone) = false := by
    unfold numeralOfFloat
    split
    · rfl
    · simp only
      split
      · unfold Numeral.withPoint
        split <;> simp_all
      · simp [Binary64.Decimal.scientific]
  simp only [number?, marked, Bool.false_and, Bool.false_eq_true, false_and, if_false,
    Binary64.toBinary64_numeralOfFloat h, h, if_true]

/-- A numeral stands for an integer within range or for a finite float. -/
theorem number?_eq_some {n : Numeral} {number : Number} (h : number? n = some number) :
    (∃ value, number = .integer value ∧ Int64.minValue.toInt ≤ value ∧ value < UInt64.size) ∨
      ∃ x, number = .float x ∧ x.isFinite = true := by
  unfold number? at h
  extract_lets value plain at h
  split at h
  · rename_i range
    exact .inl ⟨value, (Option.some.inj h).symm, range.2⟩
  · split at h
    · rename_i finite
      exact .inr ⟨_, (Option.some.inj h).symm, finite⟩
    · cases h

end Json

end CqlStatements
