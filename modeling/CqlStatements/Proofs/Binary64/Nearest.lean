import CqlStatements.Binary64
import CqlStatements.Proofs.Binary64.Words
import Mathlib.Algebra.Order.Field.Power
import Mathlib.Algebra.Order.Field.Rat
import Mathlib.Tactic.FieldSimp
import Mathlib.Tactic.Linarith
import Mathlib.Tactic.NormNum
import Mathlib.Tactic.Positivity
import Mathlib.Tactic.Ring

/-!
# Rounding to the nearest number

Around a finite number lies an interval, half of a step of its significand to each side. Just above a
power of two the step below is half as wide, and so is that side. A ratio in the interval of a number is
rounded to this number, its ends only if the significand is even.
-/
namespace CqlStatements.Binary64

section Quotients

/-- A quotient in the interval around a natural number is rounded to it. -/
theorem roundHalfEven_eq {num den m : Nat} (pos : 0 < den) (low : 2 * m * den ≤ 2 * num + den)
    (high : 2 * num ≤ 2 * m * den + den)
    (odd : m % 2 = 1 → 2 * m * den < 2 * num + den ∧ 2 * num < 2 * m * den + den) :
    roundHalfEven num den = m := by
  have parts := Nat.div_add_mod num den
  have below := Nat.mod_lt num pos
  unfold roundHalfEven
  dsimp only
  generalize num / den = floor at *
  generalize num % den = rest at *
  -- The quotient is at most half a step from `m`, so its whole part is `m` or the number before.
  have upper : floor ≤ m := by
    by_contra h
    have : den * (m + 1) ≤ den * floor := Nat.mul_le_mul_left den (by omega)
    have : den * (m + 1) = m * den + den := by ring
    have : 2 * m * den = 2 * (m * den) := by ring
    omega
  have lower : m ≤ floor + 1 := by
    by_contra h
    have : den * (floor + 2) ≤ den * m := Nat.mul_le_mul_left den (by omega)
    have : den * (floor + 2) = den * floor + 2 * den := by ring
    have : 2 * m * den = 2 * (den * m) := by ring
    omega
  obtain rfl | rfl : floor = m ∨ floor + 1 = m := by omega
  · have same : 2 * floor * den = 2 * (den * floor) := by ring
    split_ifs <;> omega
  · have same : 2 * (floor + 1) * den = 2 * (den * floor) + 2 * den := by ring
    split_ifs <;> omega

/-- The same with the quotient as one number. -/
theorem roundHalfEven_of_div {num den m : Nat} (pos : 0 < den) {q : ℚ} (quotient : (num : ℚ) / den = q)
    (low : (m : ℚ) - 1 / 2 ≤ q) (high : q ≤ m + 1 / 2)
    (odd : m % 2 = 1 → (m : ℚ) - 1 / 2 < q ∧ q < m + 1 / 2) : roundHalfEven num den = m := by
  have posQ : (0 : ℚ) < den := by exact_mod_cast pos
  have value : (num : ℚ) = q * den := (div_eq_iff posQ.ne').mp quotient
  have lowScaled := mul_le_mul_of_nonneg_right low posQ.le
  have highScaled := mul_le_mul_of_nonneg_right high posQ.le
  rw [← value] at lowScaled highScaled
  refine roundHalfEven_eq pos ?_ ?_ fun h => ?_
  · have : (2 * m * den : ℚ) ≤ 2 * num + den := by linarith
    exact_mod_cast this
  · have : (2 * num : ℚ) ≤ 2 * m * den + den := by linarith
    exact_mod_cast this
  · have lowStrict := mul_lt_mul_of_pos_right (odd h).1 posQ
    have highStrict := mul_lt_mul_of_pos_right (odd h).2 posQ
    rw [← value] at lowStrict highStrict
    have below : (2 * m * den : ℚ) < 2 * num + den := by linarith
    have above : (2 * num : ℚ) < 2 * m * den + den := by linarith
    exact ⟨by exact_mod_cast below, by exact_mod_cast above⟩

theorem roundHalfEven_le (num den : Nat) : roundHalfEven num den ≤ num / den + 1 := by
  unfold roundHalfEven
  dsimp only
  split_ifs <;> omega

theorem divideByPower_pos (num : Nat) {den : Nat} (pos : 0 < den) (e : Int) :
    0 < (divideByPower num den e).2 := by
  cases e with
  | ofNat k => exact Nat.mul_pos pos (Nat.pow_pos (by decide))
  | negSucc k => exact pos

theorem divideByPower_eq (num den : Nat) (e : Int) :
    ((divideByPower num den e).1 : ℚ) / (divideByPower num den e).2 = (num : ℚ) / den / 2 ^ e := by
  cases e with
  | ofNat k =>
      simp only [divideByPower, Nat.pow_eq, Nat.cast_mul, Nat.cast_pow, Nat.cast_ofNat,
        Int.ofNat_eq_natCast, zpow_natCast]
      rw [div_div]
  | negSucc k =>
      simp only [divideByPower, Nat.pow_eq, Nat.cast_mul, Nat.cast_pow, Nat.cast_ofNat,
        zpow_negSucc, div_inv_eq_mul]
      ring

/-- The power of two that leaves a quotient of 53 bits. -/
def quotientPower (num den : Nat) : Int :=
  let estimate : Int := (num.log2 : Int) - den.log2 - 53
  let scaled := divideByPower num den estimate
  if scaled.1 < scaled.2 * (2 * exponentBit) then estimate else estimate + 1

theorem magnitudeOfRatio_eq {num : Nat} (some : num ≠ 0) (den : Nat) :
    magnitudeOfRatio num den =
      let e := max (-1074) (quotientPower num den)
      let scaled := divideByPower num den e
      min infiniteMagnitude ((e + 1074).toNat * exponentBit + roundHalfEven scaled.1 scaled.2) := by
  rw [magnitudeOfRatio, if_neg some]
  rfl

/-- A quotient has at most 53 bits if the ratio is that small. -/
theorem scaled_lt_iff (num : Nat) {den : Nat} (pos : 0 < den) (e : ℤ) :
    (divideByPower num den e).1 < (divideByPower num den e).2 * (2 * exponentBit) ↔
      (num : ℚ) / den < 2 ^ (53 : ℤ) * 2 ^ e := by
  have scaledPos : (0 : ℚ) < (divideByPower num den e).2 := by
    exact_mod_cast divideByPower_pos num pos e
  have powerPos : (0 : ℚ) < 2 ^ e := by positivity
  have bits : (2 : ℚ) ^ (53 : ℤ) * (divideByPower num den e).2 =
      (((divideByPower num den e).2 * (2 * 2 ^ 52) : ℕ) : ℚ) := by
    push_cast
    ring
  rw [← div_lt_iff₀ powerPos, ← divideByPower_eq, div_lt_iff₀ scaledPos, exponentBit_eq, bits,
    Nat.cast_lt]

theorem zpow_log2 {n : Nat} (some : n ≠ 0) :
    (2 : ℚ) ^ (n.log2 : ℤ) ≤ n ∧ (n : ℚ) < 2 ^ ((n.log2 : ℤ) + 1) := by
  have low : (2 : ℚ) ^ n.log2 ≤ n := by exact_mod_cast Nat.log2_self_le some
  have high : (n : ℚ) < 2 ^ (n.log2 + 1) := by exact_mod_cast Nat.lt_log2_self
  exact ⟨by exact_mod_cast low, by exact_mod_cast high⟩

/-- The lengths of two numbers tell the length of their ratio up to one bit. -/
theorem estimate_bounds {num den : Nat} (some : num ≠ 0) (pos : 0 < den) {e : ℤ}
    (estimate : (num.log2 : ℤ) - den.log2 - 53 = e) :
    (2 : ℚ) ^ (52 : ℤ) * 2 ^ e ≤ (num : ℚ) / den ∧ (num : ℚ) / den < 2 ^ (54 : ℤ) * 2 ^ e := by
  have two : (2 : ℚ) ≠ 0 := two_ne_zero
  have posQ : (0 : ℚ) < den := by exact_mod_cast pos
  obtain ⟨numLow, numHigh⟩ := zpow_log2 some
  obtain ⟨denLow, denHigh⟩ := zpow_log2 pos.ne'
  rw [le_div_iff₀ posQ, div_lt_iff₀ posQ]
  constructor
  · calc (2 : ℚ) ^ (52 : ℤ) * 2 ^ e * den
        ≤ 2 ^ (52 : ℤ) * 2 ^ e * 2 ^ ((den.log2 : ℤ) + 1) := by gcongr
      _ = 2 ^ (num.log2 : ℤ) := by
          rw [← zpow_add₀ two, ← zpow_add₀ two]
          congr 1
          omega
      _ ≤ num := numLow
  · calc (num : ℚ) < 2 ^ ((num.log2 : ℤ) + 1) := numHigh
      _ = 2 ^ (54 : ℤ) * 2 ^ e * 2 ^ (den.log2 : ℤ) := by
          rw [← zpow_add₀ two, ← zpow_add₀ two]
          congr 1
          omega
      _ ≤ 2 ^ (54 : ℤ) * 2 ^ e * den := by gcongr

theorem quotientPower_bounds {num den : Nat} (some : num ≠ 0) (pos : 0 < den) :
    (2 : ℚ) ^ (52 : ℤ) * 2 ^ quotientPower num den ≤ (num : ℚ) / den ∧
      (num : ℚ) / den < 2 ^ (53 : ℤ) * 2 ^ quotientPower num den := by
  unfold quotientPower
  generalize estimate : (num.log2 : Int) - den.log2 - 53 = e
  obtain ⟨low, high⟩ := estimate_bounds some pos estimate
  dsimp only
  split
  · rename_i small
    exact ⟨low, (scaled_lt_iff num pos e).mp small⟩
  · rename_i large
    have above : (2 : ℚ) ^ (53 : ℤ) * 2 ^ e ≤ (num : ℚ) / den :=
      not_lt.mp (mt (scaled_lt_iff num pos e).mpr large)
    rw [zpow_add₀ two_ne_zero, zpow_one]
    constructor
    · calc (2 : ℚ) ^ (52 : ℤ) * (2 ^ e * 2) = 2 ^ (53 : ℤ) * 2 ^ e := by ring
        _ ≤ (num : ℚ) / den := above
    · calc (num : ℚ) / den < 2 ^ (54 : ℤ) * 2 ^ e := high
        _ = 2 ^ (53 : ℤ) * (2 ^ e * 2) := by ring

theorem lt_of_quotientPower_le {num den : Nat} (some : num ≠ 0) (pos : 0 < den) {e : ℤ}
    (h : quotientPower num den ≤ e) : (num : ℚ) / den < 2 ^ (53 : ℤ) * 2 ^ e := by
  have step : (2 : ℚ) ^ quotientPower num den ≤ 2 ^ e := zpow_le_zpow_right₀ one_le_two h
  exact (quotientPower_bounds some pos).2.trans_le (by gcongr)

end Quotients

section Intervals

variable {x : Binary64} {v : ℚ}

/-- How far the interval of a number reaches down, in steps of its significand. -/
def gap (x : Binary64) : ℚ := if x.fractionField = 0 ∧ 1 < x.exponentField then 1 / 4 else 1 / 2

/-- A positive number lies in the interval that rounds to a finite number. -/
structure Rounds (x : Binary64) (v : ℚ) : Prop where
  low : (x.significand - x.gap) * 2 ^ x.power ≤ v
  high : v ≤ (x.significand + 1 / 2) * 2 ^ x.power
  odd : x.significand % 2 = 1 →
    (x.significand - x.gap) * 2 ^ x.power < v ∧ v < (x.significand + 1 / 2) * 2 ^ x.power

theorem gap_le (x : Binary64) : x.gap ≤ 1 / 2 := by
  unfold gap
  split <;> norm_num

/-- No number in the interval needs a power above that of the number itself. -/
theorem Rounds.power_le (h : x.Rounds v) {e : ℤ} (low : (2 : ℚ) ^ (52 : ℤ) * 2 ^ e ≤ v) :
    e ≤ x.power := by
  by_contra above
  have bits : (x.significand : ℚ) + 1 ≤ 2 ^ (53 : ℤ) := by
    exact_mod_cast significand_lt x
  have step : (2 : ℚ) ^ (x.power + 1) ≤ 2 ^ e := zpow_le_zpow_right₀ one_le_two (by omega)
  rw [zpow_add_one₀ two_ne_zero] at step
  have pos : (0 : ℚ) < 2 ^ x.power := by positivity
  have high := h.high
  have : (2 : ℚ) ^ (53 : ℤ) * 2 ^ x.power ≤ v := by linarith
  nlinarith

/-- A power below that of the number itself is needed only just below a power of two. -/
theorem Rounds.power_eq (h : x.Rounds v) {e : ℤ} (less : e < x.power) (lowest : -1074 ≤ e)
    (high : v < (2 : ℚ) ^ (53 : ℤ) * 2 ^ e) :
    x.significand = 2 ^ 52 ∧ x.gap = 1 / 4 ∧ e = x.power - 1 := by
  have pos : (0 : ℚ) < 2 ^ x.power := by positivity
  have low := h.low
  have gap := x.gap_le
  have normal : 2 ^ 52 ≤ x.significand := significand_ge (by omega)
  have step : (2 : ℚ) ^ (e + 1) ≤ 2 ^ x.power := zpow_le_zpow_right₀ one_le_two (by omega)
  rw [zpow_add_one₀ two_ne_zero] at step
  have below : (x.significand : ℚ) - x.gap < 2 ^ (52 : ℤ) := by
    by_contra above
    have : (2 : ℚ) ^ (52 : ℤ) * 2 ^ x.power ≤ (x.significand - x.gap) * 2 ^ x.power :=
      mul_le_mul_of_nonneg_right (not_lt.mp above) pos.le
    linarith
  have least : x.significand = 2 ^ 52 := by
    have : (x.significand : ℚ) < ((2 ^ 52 + 1 : ℕ) : ℚ) := by
      push_cast
      linarith
    have : x.significand < 2 ^ 52 + 1 := by exact_mod_cast this
    omega
  have quarter : x.gap = 1 / 4 :=
    if_pos ((boundary_iff x).mpr ⟨least, by omega⟩)
  refine ⟨least, quarter, ?_⟩
  by_contra other
  have steps : (2 : ℚ) ^ (e + 2) ≤ 2 ^ x.power := zpow_le_zpow_right₀ one_le_two (by omega)
  rw [zpow_add₀ two_ne_zero] at steps
  rw [quarter, least] at low
  push_cast at low
  linarith

/-- Divided by the power of the number, the interval lies within half a step of the significand. -/
theorem Rounds.div_power (h : x.Rounds v) :
    (x.significand : ℚ) - 1 / 2 ≤ v / 2 ^ x.power ∧ v / 2 ^ x.power ≤ x.significand + 1 / 2 ∧
      (x.significand % 2 = 1 →
        (x.significand : ℚ) - 1 / 2 < v / 2 ^ x.power ∧ v / 2 ^ x.power < x.significand + 1 / 2) := by
  have pos : (0 : ℚ) < 2 ^ x.power := by positivity
  have wider : ((x.significand : ℚ) - 1 / 2) * 2 ^ x.power ≤ (x.significand - x.gap) * 2 ^ x.power :=
    mul_le_mul_of_nonneg_right (by linarith [x.gap_le]) pos.le
  rw [le_div_iff₀ pos, div_le_iff₀ pos, lt_div_iff₀ pos, div_lt_iff₀ pos]
  exact ⟨wider.trans h.low, h.high, fun odd => ⟨wider.trans_lt (h.odd odd).1, (h.odd odd).2⟩⟩

/-- A ratio in the interval of a finite number is rounded to this number. -/
theorem magnitudeOfRatio_of_rounds {num den : Nat} (finite : x.isFinite = true)
    (nonzero : x.isZero = false) (pos : 0 < den) (h : x.Rounds ((num : ℚ) / den)) :
    magnitudeOfRatio num den = x.magnitude := by
  have powerPos : (0 : ℚ) < 2 ^ x.power := by positivity
  have gap := x.gap_le
  have some : num ≠ 0 := by
    rintro rfl
    have low := h.low
    have one : (1 : ℚ) ≤ x.significand := by exact_mod_cast significand_pos nonzero
    rw [Nat.cast_zero, zero_div] at low
    have : 0 < (x.significand - x.gap) * 2 ^ x.power := mul_pos (by linarith) powerPos
    linarith
  have lowest := power_bounds finite
  rw [magnitudeOfRatio_eq some]
  generalize chosen : max (-1074) (quotientPower num den) = e
  have atMost : e ≤ x.power := by
    have := h.power_le (quotientPower_bounds some pos).1
    omega
  have rounded : (e + 1074).toNat * exponentBit +
      roundHalfEven (divideByPower num den e).1 (divideByPower num den e).2 = x.magnitude := by
    rw [magnitude_eq]
    have quotient := divideByPower_eq num den e
    have denPos := divideByPower_pos num pos e
    rcases atMost.eq_or_lt with rfl | less
    · obtain ⟨low, high, odd⟩ := h.div_power
      rw [roundHalfEven_of_div denPos quotient low high odd]
    · have high := lt_of_quotientPower_le some pos (chosen ▸ le_max_right _ _)
      obtain ⟨least, quarter, rfl⟩ := h.power_eq less (by omega) high
      -- The quotient has 53 bits and is rounded up to the power of two above it.
      have stepPos : (0 : ℚ) < 2 ^ (x.power - 1) := by positivity
      have low := h.low
      rw [quarter, least, ← sub_add_cancel x.power 1, zpow_add_one₀ two_ne_zero] at low
      have carried : roundHalfEven (divideByPower num den (x.power - 1)).1
          (divideByPower num den (x.power - 1)).2 = 2 ^ 53 := by
        refine roundHalfEven_of_div denPos quotient ?_ ?_ fun odd => absurd odd (by decide)
        · rw [le_div_iff₀ stepPos]
          push_cast at low ⊢
          linarith
        · rw [div_le_iff₀ stepPos]
          push_cast
          linarith
      rw [carried, least, exponentBit_eq]
      omega
  simp only [rounded]
  exact min_eq_right (magnitude_lt finite).le

end Intervals

section Decimals

variable {x : Binary64}

/-- All intervals lie between half of the lowest number and the first power of two that is infinite. -/
theorem Rounds.bounds {v : ℚ} (finite : x.isFinite = true) (nonzero : x.isZero = false)
    (h : x.Rounds v) : (2 : ℚ) ^ (-1075 : ℤ) ≤ v ∧ v < 2 ^ (1024 : ℤ) := by
  obtain ⟨lowest, highest⟩ := power_bounds finite
  have one : (1 : ℚ) ≤ x.significand := by exact_mod_cast significand_pos nonzero
  have bits : (x.significand : ℚ) + 1 ≤ 2 ^ (53 : ℤ) := by exact_mod_cast significand_lt x
  have gap := x.gap_le
  constructor
  · calc (2 : ℚ) ^ (-1075 : ℤ) = 1 / 2 * 2 ^ (-1074 : ℤ) := by
          rw [show (-1075 : ℤ) = -1074 - 1 by rfl, zpow_sub_one₀ two_ne_zero]
          ring
      _ ≤ 1 / 2 * 2 ^ x.power := by
          gcongr
          exact one_le_two
      _ ≤ (x.significand - x.gap) * 2 ^ x.power := by
          gcongr
          linarith
      _ ≤ v := h.low
  · calc v ≤ (x.significand + 1 / 2) * 2 ^ x.power := h.high
      _ < 2 ^ (53 : ℤ) * 2 ^ x.power := by
          gcongr
          linarith
      _ ≤ 2 ^ (53 : ℤ) * 2 ^ (971 : ℤ) := by
          gcongr
          exact one_le_two
      _ = 2 ^ (1024 : ℤ) := by rw [← zpow_add₀ two_ne_zero]; rfl

/-- A number other than zero lies between the powers of ten that its digits count. -/
theorem pow_length_toDigits {c : Nat} (some : c ≠ 0) :
    ∃ places, (Nat.toDigits 10 c).length = places + 1 ∧ 10 ^ places ≤ c ∧ c < 10 ^ (places + 1) := by
  have digits : 0 < (Nat.toDigits 10 c).length := Nat.length_toDigits_pos
  obtain ⟨places, length⟩ := Nat.exists_eq_succ_of_ne_zero digits.ne'
  refine ⟨places, length, ?_, (Nat.length_toDigits_le_iff (by decide) (by omega)).mp length.le⟩
  by_contra less
  cases places with
  | zero => omega
  | succ places =>
      have shorter := (Nat.length_toDigits_le_iff (by decide) (by omega)).mpr (not_le.mp less)
      omega

theorem decimal_bounds {c : Nat} (some : c ≠ 0) (scale : ℤ) :
    (10 : ℚ) ^ ((Nat.toDigits 10 c).length + scale - 1) ≤ c * 10 ^ scale ∧
      (c : ℚ) * 10 ^ scale < 10 ^ ((Nat.toDigits 10 c).length + scale) := by
  obtain ⟨places, length, low, high⟩ := pow_length_toDigits some
  have ten : (10 : ℚ) ≠ 0 := by norm_num
  have lowQ : (10 : ℚ) ^ (places : ℤ) ≤ c := by exact_mod_cast low
  have highQ : (c : ℚ) < 10 ^ ((places : ℤ) + 1) := by exact_mod_cast high
  rw [length]
  constructor
  · calc (10 : ℚ) ^ (((places + 1 : ℕ) : ℤ) + scale - 1) = 10 ^ (places : ℤ) * 10 ^ scale := by
          rw [← zpow_add₀ ten]
          congr 1
          omega
      _ ≤ c * 10 ^ scale := by gcongr
  · calc (c : ℚ) * 10 ^ scale < 10 ^ ((places : ℤ) + 1) * 10 ^ scale := by gcongr
      _ = 10 ^ (((places + 1 : ℕ) : ℤ) + scale) := by
          rw [← zpow_add₀ ten]
          rfl

/-- A decimal in the interval of a finite number other than zero is rounded to this number. -/
theorem ofDecimal_of_rounds {coefficient : Nat} {scale : ℤ} (finite : x.isFinite = true)
    (nonzero : x.isZero = false) (h : x.Rounds (coefficient * 10 ^ scale)) :
    ofDecimal x.isNegative coefficient scale = x := by
  obtain ⟨above, below⟩ := h.bounds finite nonzero
  have some : coefficient ≠ 0 := by
    rintro rfl
    rw [Nat.cast_zero, zero_mul] at above
    exact absurd above (not_le.mpr (by positivity))
  obtain ⟨first, next⟩ := decimal_bounds some scale
  unfold ofDecimal
  extract_lets top
  have notSmall : ¬ (coefficient = 0 ∨ top < -330) := by
    rintro (none | small)
    · exact some none
    · have power : (10 : ℚ) ^ top ≤ 10 ^ (-331 : ℤ) := zpow_le_zpow_right₀ (by norm_num) (by omega)
      have tiny : (10 : ℚ) ^ (-331 : ℤ) < 2 ^ (-1075 : ℤ) := by
        rw [zpow_neg, zpow_neg, inv_lt_inv₀ (by positivity) (by positivity)]
        exact_mod_cast (by decide +kernel : 2 ^ 1075 < 10 ^ 331)
      exact (above.trans_lt (next.trans_le (power.trans tiny.le))).false
  have notLarge : ¬ 310 < top := by
    intro large
    have power : (10 : ℚ) ^ (310 : ℤ) ≤ 10 ^ (top - 1) :=
      zpow_le_zpow_right₀ (by norm_num) (by omega)
    have huge : (2 : ℚ) ^ (1024 : ℤ) ≤ 10 ^ (310 : ℤ) := by
      exact_mod_cast (by decide +kernel : 2 ^ 1024 ≤ 10 ^ 310)
    exact (below.trans_le (huge.trans (power.trans first))).false
  rw [if_neg notSmall, if_neg notLarge]
  cases scale with
  | ofNat k =>
      have ratio : x.Rounds (((coefficient * Nat.pow 10 k : ℕ) : ℚ) / (1 : ℕ)) := by
        simpa using h
      simp only [magnitudeOfRatio_of_rounds finite nonzero Nat.one_pos ratio, ofMagnitude_magnitude]
  | negSucc k =>
      have ratio : x.Rounds ((coefficient : ℚ) / (Nat.pow 10 (k + 1) : ℕ)) := by
        simpa [zpow_negSucc, div_eq_mul_inv] using h
      have pos : 0 < Nat.pow 10 (k + 1) := Nat.pow_pos (by decide)
      simp only [magnitudeOfRatio_of_rounds finite nonzero pos ratio, ofMagnitude_magnitude]

/-- No integer of 64 bits, with or without a sign bit, is too large. -/
theorem isFinite_ofInt {n : Int} (h : n.natAbs < 2 ^ 64) : (ofInt n).isFinite = true := by
  refine isFinite_ofMagnitude _ ?_
  by_cases zero : n.natAbs = 0
  · rw [zero]
    decide
  · have small : (n.natAbs : ℚ) < 2 ^ (64 : ℤ) := by exact_mod_cast h
    have power : quotientPower n.natAbs 1 < 12 := by
      have low := (quotientPower_bounds zero Nat.one_pos).1
      rw [← zpow_add₀ two_ne_zero, Nat.cast_one, div_one] at low
      have := (zpow_lt_zpow_iff_right₀ one_lt_two).mp (low.trans_lt small)
      omega
    rw [magnitudeOfRatio_eq zero]
    generalize chosen : max (-1074) (quotientPower n.natAbs 1) = e
    have bits := Nat.div_lt_of_lt_mul ((scaled_lt_iff n.natAbs Nat.one_pos e).mpr
      (lt_of_quotientPower_le zero Nat.one_pos (chosen ▸ le_max_right _ _)))
    have rounded := roundHalfEven_le (divideByPower n.natAbs 1 e).1 (divideByPower n.natAbs 1 e).2
    refine lt_of_le_of_lt (min_le_right _ _) ?_
    rw [infiniteMagnitude]
    rw [exponentBit_eq] at *
    omega

end Decimals

end CqlStatements.Binary64
