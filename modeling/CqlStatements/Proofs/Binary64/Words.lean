import CqlStatements.Binary64
import Mathlib.Algebra.Group.Nat.Hom

/-!
# The parts of a word

A word is its sign bit and its magnitude, and the magnitude of a finite number is fixed by significand
and power. Taken as a number of its own it orders the finite numbers, and its lowest step is one step of
the significand, also where the exponent field changes.
-/
namespace CqlStatements.Binary64

variable {x : Binary64}

/-- The word below its sign bit. -/
def magnitude (x : Binary64) : Nat := x.exponentField * exponentBit + x.fractionField

theorem exponentBit_eq : exponentBit = 2 ^ 52 := rfl

theorem fractionField_lt (x : Binary64) : x.fractionField < 2 ^ 52 :=
  Nat.mod_lt _ (by decide)

theorem exponentField_lt (h : x.isFinite = true) : x.exponentField < 2047 := by
  have other : x.exponentField ≠ 2047 := by simpa [isFinite] using h
  have below : x.exponentField < 2048 := Nat.mod_lt _ (by decide)
  omega

theorem magnitude_lt (h : x.isFinite = true) : x.magnitude < infiniteMagnitude := by
  have exponent := exponentField_lt h
  have fraction := fractionField_lt x
  rw [magnitude, infiniteMagnitude, exponentBit_eq]
  omega

theorem ofMagnitude_magnitude (x : Binary64) : ofMagnitude x.isNegative x.magnitude = x := by
  have word : x.bits.toNat < 2 ^ 64 := x.bits.toNat_lt
  have parts : (if x.isNegative then signBit else 0) + x.magnitude = x.bits.toNat := by
    rw [magnitude, exponentField, fractionField, exponentBit_eq]
    by_cases high : signBit ≤ x.bits.toNat
    · rw [isNegative, decide_eq_true high, if_pos rfl]
      rw [signBit] at high ⊢
      omega
    · rw [isNegative, decide_eq_false high, if_neg Bool.false_ne_true]
      rw [signBit] at high
      omega
  rw [ofMagnitude, parts, UInt64.ofNat_toNat]

theorem isFinite_ofMagnitude (negative : Bool) {magnitude : Nat} (h : magnitude < infiniteMagnitude) :
    (ofMagnitude negative magnitude).isFinite = true := by
  have word : (UInt64.ofNat ((if negative then signBit else 0) + magnitude)).toNat =
      (if negative then signBit else 0) + magnitude := by
    rw [UInt64.toNat_ofNat_of_lt']
    rw [infiniteMagnitude, exponentBit_eq] at h
    rw [UInt64.size, signBit]
    split <;> omega
  have field : (ofMagnitude negative magnitude).exponentField = magnitude / exponentBit := by
    rw [exponentField, ofMagnitude, word, signBit, exponentBit_eq]
    rw [infiniteMagnitude, exponentBit_eq] at h
    split <;> omega
  rw [isFinite, field, bne_iff_ne, exponentBit_eq]
  rw [infiniteMagnitude, exponentBit_eq] at h
  omega

/-- Of a number other than zero the significand is positive. -/
theorem significand_pos (h : x.isZero = false) : 0 < x.significand := by
  simp only [isZero, Bool.and_eq_false_iff, beq_eq_false_iff_ne] at h
  rw [significand, exponentBit_eq]
  split <;> omega

theorem significand_lt (x : Binary64) : x.significand < 2 ^ 53 := by
  have fraction := fractionField_lt x
  rw [significand, exponentBit_eq]
  split <;> omega

theorem power_bounds (h : x.isFinite = true) : -1074 ≤ x.power ∧ x.power ≤ 971 := by
  have exponent := exponentField_lt h
  rw [power]
  split <;> omega

/-- Only the lowest power goes with a significand of less than 53 bits. -/
theorem significand_ge (h : -1074 < x.power) : 2 ^ 52 ≤ x.significand := by
  rw [power] at h
  rw [significand, exponentBit_eq]
  split at h <;> rename_i field
  · omega
  · rw [if_neg field]
    omega

theorem magnitude_eq (x : Binary64) :
    x.magnitude = (x.power + 1074).toNat * exponentBit + x.significand := by
  rw [magnitude, power, significand, exponentBit_eq]
  split <;> omega

/-- Just above a power of two, but not at the lowest one, the numbers below lie twice as dense. -/
theorem boundary_iff (x : Binary64) : (x.fractionField = 0 ∧ 1 < x.exponentField) ↔
    (x.significand = 2 ^ 52 ∧ -1074 < x.power) := by
  have fraction := fractionField_lt x
  rw [significand, power, exponentBit_eq]
  split <;> omega

end CqlStatements.Binary64
