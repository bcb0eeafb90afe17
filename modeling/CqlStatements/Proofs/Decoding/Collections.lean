import CqlStatements.Proofs.Decoding.Arrangements
import CqlStatements.Proofs.RoundTrip.Values

/-!
# Collections by the shape of their items

An array has one of two shapes or none: all its items are scalars, or it has items and all of them are
arrays of two scalars. No item is both, so the shape that is tried first cannot hide the other, and what it
takes of the items before it fails is not kept. Which scalar an item stands for is said without the decoder.

Not every number and not every string of JSON is a scalar: a number may be too large for a float, and a
string may hold half of a surrogate pair. An array with such an item is rejected, even if it has no other.
-/
namespace CqlStatements

namespace Numeral

/-- A numeral is written as an integer: without point and power of ten, and not as negative zero. -/
def IsInteger (n : Numeral) (value : Int) : Prop :=
  n.fraction = [] ∧ n.exponent = none ∧ ¬(n.negative = true ∧ n.whole = 0) ∧
    value = if n.negative then -(n.whole : Int) else n.whole

variable {n : Numeral} {value : Int}

theorem IsInteger.natAbs (h : n.IsInteger value) : value.natAbs = n.whole := by
  rw [h.2.2.2]
  split
  · rw [Int.natAbs_neg, Int.natAbs_natCast]
  · rw [Int.natAbs_natCast]

theorem IsInteger.unique {other : Int} (h : n.IsInteger value) (again : n.IsInteger other) :
    value = other :=
  h.2.2.2.trans again.2.2.2.symm

theorem IsInteger.negative (h : n.IsInteger value) : n.negative = decide (value < 0) := by
  obtain ⟨_, _, nonzero, rfl⟩ := h
  cases sign : n.negative with
  | true =>
      have some : n.whole ≠ 0 := fun zero => nonzero ⟨sign, zero⟩
      rw [if_pos rfl, decide_eq_true (by omega)]
  | false => rw [if_neg Bool.false_ne_true, decide_eq_false (by omega)]

/-- An integer of at most 64 bits is far from where floats end. -/
theorem IsInteger.toBinary64 (h : n.IsInteger value) (small : value.natAbs < 2 ^ 64) :
    n.toBinary64 = Binary64.ofInt value := by
  have coefficient : n.coefficient = n.whole := by simp [Numeral.coefficient, h.1, ofDigits]
  have scale : n.scale = .ofNat 0 := by simp [Numeral.scale, h.1, h.2.1]
  rw [h.natAbs] at small
  rw [Numeral.toBinary64, coefficient, scale, h.negative, Binary64.ofInt, h.natAbs]
  unfold Binary64.ofDecimal
  by_cases zero : n.whole = 0
  · simp only [zero, true_or, if_true]
    rfl
  · have short : (Nat.toDigits 10 n.whole).length ≤ 20 :=
      (Nat.length_toDigits_le_iff (by decide) (by decide)).mpr (small.trans (by decide))
    have place : Int.ofNat 0 = 0 := rfl
    have first : ¬(n.whole = 0 ∨ ((Nat.toDigits 10 n.whole).length : Int) + Int.ofNat 0 < -330) := by
      simp only [zero, false_or]
      omega
    have second : ¬310 < ((Nat.toDigits 10 n.whole).length : Int) + Int.ofNat 0 := by omega
    simp only [if_neg first, if_neg second]
    rw [Nat.pow_eq, Nat.pow_zero, Nat.mul_one]

theorem plain_iff :
    (n.fraction.isEmpty && n.exponent.isNone && !(n.negative && n.whole == 0)) = true ↔
      n.fraction = [] ∧ n.exponent = none ∧ ¬(n.negative = true ∧ n.whole = 0) := by
  rw [Bool.and_eq_true, Bool.and_eq_true, List.isEmpty_iff, Option.isNone_iff_eq_none, and_assoc,
    Bool.not_eq_true', ← Bool.not_eq_true, Bool.and_eq_true, beq_iff_eq]

theorem number?_of_isInteger (h : n.IsInteger value) (low : Int64.minValue.toInt ≤ value)
    (high : value < UInt64.size) : Json.number? n = some (.integer value) := by
  obtain ⟨fraction, exponent, nonzero, rfl⟩ := h
  rw [Json.number?]
  exact if_pos ⟨plain_iff.mpr ⟨fraction, exponent, nonzero⟩, low, high⟩

theorem number?_of_not_isInteger
    (h : ∀ value, n.IsInteger value → ¬(Int64.minValue.toInt ≤ value ∧ value < UInt64.size)) :
    Json.number? n = if n.toBinary64.isFinite then some (.float n.toBinary64) else none := by
  rw [Json.number?]
  refine if_neg ?_
  rintro ⟨plain, range⟩
  obtain ⟨fraction, exponent, nonzero⟩ := plain_iff.mp plain
  exact h _ ⟨fraction, exponent, nonzero, rfl⟩ range

end Numeral

namespace Scalar

/-- The scalar that a value of JSON stands for. -/
inductive Denotes : Json → Scalar → Prop
  | null : Denotes .null .null
  | bool (b : Bool) : Denotes (.bool b) (.bool b)
  | int {n : Numeral} {k : Int64} : n.IsInteger k.toInt → Denotes (.number n) (.int k)
  | float {n : Numeral} : (∀ k : Int64, ¬n.IsInteger k.toInt) → n.toBinary64.isFinite = true →
      Denotes (.number n) (.float n.toBinary64)
  | string (s : String) : Denotes (.string s) (.string s)

theorem ofInteger_of_isInteger {n : Numeral} {value : Int} (h : n.IsInteger value)
    (small : value.natAbs < 2 ^ 64) (noWord : ∀ k : Int64, ¬n.IsInteger k.toInt) :
    ofInteger value = .float n.toBinary64 := by
  have none : Integer.word? value = none := by
    refine Option.eq_none_iff_forall_ne_some.mpr fun k word => noWord k ?_
    rwa [← Integer.word?_eq_some_iff.mp word]
  rw [ofInteger, none, h.toBinary64 small]

/-- A number is read as an integer if it is written as one and fits, and otherwise as a float. -/
theorem ofJson?_number (n : Numeral) {x : Scalar} :
    ofJson? (.number n) = some x ↔ Denotes (.number n) x := by
  have least : Int64.minValue.toInt = -2 ^ 63 := rfl
  have size : (UInt64.size : Int) = 2 ^ 64 := rfl
  rw [ofJson?]
  by_cases word : ∃ k : Int64, n.IsInteger k.toInt
  · obtain ⟨k, integer⟩ := word
    have high := k.toInt_lt
    rw [Numeral.number?_of_isInteger integer k.minValue_le_toInt (by omega), Option.map_some,
      Option.some.injEq]
    dsimp only
    rw [ofInteger_toInt]
    constructor
    · rintro rfl
      exact .int integer
    · rintro (_ | _ | same | ⟨noWord, _⟩)
      · rw [Int64.toInt_inj.mp (integer.unique same)]
      · exact absurd integer (noWord k)
  have noWord := not_exists.mp word
  have float : Denotes (.number n) x ↔ n.toBinary64.isFinite = true ∧ .float n.toBinary64 = x := by
    constructor
    · rintro (_ | _ | integer | ⟨_, finite⟩)
      · exact absurd integer (noWord _)
      · exact ⟨finite, rfl⟩
    · rintro ⟨finite, rfl⟩
      exact .float noWord finite
  rw [float]
  by_cases within : ∃ value, n.IsInteger value ∧ Int64.minValue.toInt ≤ value ∧ value < UInt64.size
  · obtain ⟨value, integer, low, high⟩ := within
    have small : value.natAbs < 2 ^ 64 := by omega
    rw [Numeral.number?_of_isInteger integer low high, Option.map_some, Option.some.injEq]
    dsimp only
    rw [ofInteger_of_isInteger integer small noWord, integer.toBinary64 small]
    exact (and_iff_right (Binary64.isFinite_ofInt small)).symm
  · rw [Numeral.number?_of_not_isInteger fun value integer range => within ⟨value, integer, range⟩]
    split
    · rename_i finite
      rw [Option.map_some, Option.some.injEq, and_iff_right finite]
    · rename_i infinite
      simp [infinite]

theorem ofJson?_eq_some_iff {j : Json} {x : Scalar} : ofJson? j = some x ↔ Denotes j x := by
  cases j with
  | number n => exact ofJson?_number n
  | null | bool | string =>
      rw [ofJson?, Option.some.injEq]
      constructor
      · rintro rfl
        constructor
      · rintro ⟨⟩
        rfl
  | unpaired | array | object | broken =>
      constructor
      · intro h
        cases h
      · rintro ⟨⟩

end Scalar

namespace Json

end Json

namespace Collection

/-- The entry that an array of two scalars stands for. -/
inductive DenotesEntry : Json → Scalar × Scalar → Prop
  | pair {key value : Json} {x y : Scalar} : Scalar.Denotes key x → Scalar.Denotes value y →
      DenotesEntry (.array [key, value]) (x, y)

/-- The collection that the items of an array stand for, item by item in their order. -/
inductive Denotes (items : List Json) : Collection → Prop
  | elements {xs : List Scalar} : List.Forall₂ Scalar.Denotes items xs → Denotes items (.elements xs)
  | entries {pairs : List (Scalar × Scalar)} : items ≠ [] → List.Forall₂ DenotesEntry items pairs →
      Denotes items (.entries pairs)

/-- What an array of scalars or of entries holds can be taken in full. -/
theorem Denotes.fits {items : List Json} {c : Collection} (denoted : Denotes items c) (room : Nat) :
    (Json.array items).fits (room + 2) = true := by
  have scalar {j : Json} {x : Scalar} (denoted : Scalar.Denotes j x) (room : Nat) : j.fits room = true :=
    Scalar.fits_of_ofJson? (Scalar.ofJson?_eq_some_iff.mpr denoted) room
  rw [Json.fits, Json.allFit_iff]
  cases denoted with
  | elements elements =>
      intro item mem
      obtain ⟨x, denoted⟩ := Fallible.exists_forall₂_iff.mp ⟨_, elements⟩ item mem
      exact scalar denoted _
  | entries _ entries =>
      intro item mem
      obtain ⟨_, key, value⟩ := Fallible.exists_forall₂_iff.mp ⟨_, entries⟩ item mem
      simp only [Json.fits, Json.allFit, scalar key, scalar value, Bool.and_self]

end Collection

namespace Mutation

open Json.Record

/-- A number that is too large for a float. -/
def tooLarge : Json := .number ⟨false, 1, [], some 400⟩

end Mutation
end CqlStatements
