import CqlStatements.Binary64.Shortest
import CqlStatements.Proofs.Binary64.Nearest

/-!
# The shortest decimal rounds back

The lowest grid of decimals is finer than the interval of any number, so a decimal in the interval is
always found. Which of several is taken does not matter here: whatever is found lies in the interval.
-/
namespace CqlStatements.Binary64

section Intervals

theorem Interval.contains_iff {i : Interval} {n : Nat} :
    i.contains n = true ↔ i.low ≤ n * i.den ∧ n * i.den ≤ i.high ∧
      (i.closed = false → i.low < n * i.den ∧ n * i.den < i.high) := by
  unfold contains
  cases i.closed with
  | true => simp
  | false =>
      simp only [Bool.false_eq_true, if_false, Bool.and_eq_true, decide_eq_true_eq, forall_true_left]
      omega

theorem Interval.contains_of_nearest {i : Interval} {tie : Tie} {n : Nat}
    (h : i.nearest tie = some n) : i.contains n = true := by
  unfold nearest at h
  extract_lets lower below at h
  split at h
  · rename_i here above
    split at h
    · exact Option.some.inj h ▸ here
    · exact Option.some.inj h ▸ above
  · rename_i here _
    exact Option.some.inj h ▸ here
  · rename_i _ above
    exact Option.some.inj h ▸ above
  · cases h

theorem Interval.exists_nearest {i : Interval} (tie : Tie) (h : i.contains (i.value / i.den) = true) :
    ∃ n, i.nearest tie = some n := by
  unfold nearest
  simp only [h]
  split
  · split <;> exact ⟨_, rfl⟩
  · exact ⟨_, rfl⟩
  all_goals simp_all

/-- Where the unit is no finer than a quarter of a step, the multiple below the number is contained. -/
theorem Interval.contains_lower {i : Interval} {m num : Nat} (pos : 0 < m) (denPos : 0 < i.den)
    (fine : i.den ≤ num) (value : i.value = 4 * m * num) (low : i.low ≤ (4 * m - 1) * num)
    (high : i.high = (4 * m + 2) * num) : i.contains (i.value / i.den) = true := by
  rw [contains_iff, value, high]
  have parts := Nat.div_add_mod (4 * m * num) i.den
  have below := Nat.mod_lt (4 * m * num) denPos
  rw [Nat.mul_comm i.den] at parts
  have lower : (4 * m - 1) * num = 4 * m * num - num := by rw [Nat.sub_mul, Nat.one_mul]
  have upper : (4 * m + 2) * num = 4 * m * num + 2 * num := by ring
  have some : num ≤ 4 * m * num := Nat.le_mul_of_pos_left _ (by omega)
  omega

variable {x : Binary64}

/-- A power of a base as a ratio of two natural numbers. -/
theorem zpow_eq_div (base : Nat) (e : ℤ) :
    (base : ℚ) ^ e = (Nat.pow base e.toNat : ℕ) / (Nat.pow base (-e).toNat : ℕ) := by
  cases e with
  | ofNat k => simp
  | negSucc k => simp [zpow_negSucc, Int.neg_negSucc]

/-- Multiples of two ratios, brought to one denominator, compare as they are. -/
theorem cross_le_iff {a n p q r s : Nat} (posQ : 0 < q) (posS : 0 < s) :
    (a * (p * s) ≤ n * (q * r) ↔ (a : ℚ) * (p / q) ≤ n * (r / s)) ∧
      (n * (q * r) ≤ a * (p * s) ↔ (n : ℚ) * (r / s) ≤ a * (p / q)) := by
  have q0 : (0 : ℚ) < q := by exact_mod_cast posQ
  have s0 : (0 : ℚ) < s := by exact_mod_cast posS
  rw [← mul_div_assoc, ← mul_div_assoc, div_le_div_iff₀ q0 s0, div_le_div_iff₀ s0 q0]
  constructor
  · rw [show (a : ℚ) * p * s = (a * (p * s) : ℕ) by push_cast; ring,
      show (n : ℚ) * r * q = (n * (q * r) : ℕ) by push_cast; ring, Nat.cast_le]
  · rw [show (a : ℚ) * p * s = (a * (p * s) : ℕ) by push_cast; ring,
      show (n : ℚ) * r * q = (n * (q * r) : ℕ) by push_cast; ring, Nat.cast_le]

/-- Quarter steps of the significand and multiples on a grid, compared in the unit of the interval. -/
theorem compare_on_grid (x : Binary64) (k : ℤ) (steps n : Nat) :
    (steps * (Nat.pow 2 (x.power - 2).toNat * Nat.pow 10 (-k).toNat) ≤ n * (x.interval k).den ↔
        (steps : ℚ) * 2 ^ (x.power - 2) ≤ n * 10 ^ k) ∧
      (n * (x.interval k).den ≤ steps * (Nat.pow 2 (x.power - 2).toNat * Nat.pow 10 (-k).toNat) ↔
        (n : ℚ) * 10 ^ k ≤ steps * 2 ^ (x.power - 2)) := by
  have two := zpow_eq_div 2 (x.power - 2)
  have ten := zpow_eq_div 10 k
  rw [Nat.cast_ofNat] at two ten
  rw [two, ten]
  exact cross_le_iff (Nat.pow_pos (by decide)) (Nat.pow_pos (by decide))

/-- What the interval of a number contains on a grid are the multiples that round to the number. -/
theorem rounds_of_contains (nonzero : x.isZero = false) {k : ℤ} {n : Nat}
    (h : (x.interval k).contains n = true) : x.Rounds (n * 10 ^ k) := by
  obtain ⟨low, high, odd⟩ := Interval.contains_iff.mp h
  have pos := significand_pos nonzero
  -- The ends of the interval in quarters of a step.
  obtain ⟨lower, lowIs, lowValue⟩ : ∃ lower : Nat,
      (x.interval k).low = lower * (Nat.pow 2 (x.power - 2).toNat * Nat.pow 10 (-k).toNat) ∧
        (lower : ℚ) * 2 ^ (x.power - 2) = (x.significand - x.gap) * 2 ^ x.power := by
    refine ⟨_, rfl, ?_⟩
    rw [zpow_sub₀ two_ne_zero, gap]
    split
    · rw [Nat.cast_sub (by omega)]
      push_cast
      ring
    · rw [Nat.cast_sub (by omega)]
      push_cast
      ring
  have highIs : (x.interval k).high = (4 * x.significand + 2) *
      (Nat.pow 2 (x.power - 2).toNat * Nat.pow 10 (-k).toNat) := rfl
  have highValue : ((4 * x.significand + 2 : ℕ) : ℚ) * 2 ^ (x.power - 2) =
      (x.significand + 1 / 2) * 2 ^ x.power := by
    rw [zpow_sub₀ two_ne_zero]
    push_cast
    ring
  have closed : (x.interval k).closed = (x.significand % 2 == 0) := rfl
  obtain ⟨lowIff, lowIff'⟩ := compare_on_grid x k lower n
  obtain ⟨highIff', highIff⟩ := compare_on_grid x k (4 * x.significand + 2) n
  rw [← lowIs, lowValue] at lowIff lowIff'
  rw [← highIs, highValue] at highIff highIff'
  refine ⟨lowIff.mp low, highIff.mp high, fun isOdd => ?_⟩
  obtain ⟨lowStrict, highStrict⟩ := odd (by rw [closed, isOdd]; rfl)
  exact ⟨not_le.mp (mt lowIff'.mpr (not_le.mpr lowStrict)),
    not_le.mp (mt highIff'.mpr (not_le.mpr highStrict))⟩

end Intervals

section Grids

/-- On the lowest grid the multiple below a number lies in its interval. -/
theorem contains_lowest (x : Binary64) (finite : x.isFinite = true) (nonzero : x.isZero = false) :
    (x.interval (-324)).contains ((x.interval (-324)).value / (x.interval (-324)).den) = true := by
  have lowest := power_bounds finite
  have den : (x.interval (-324)).den = 2 ^ (-(x.power - 2)).toNat := Nat.mul_one _
  have exponent : (-(x.power - 2)).toNat ≤ 1076 := by omega
  have power := pow_le_pow_right₀ (by decide : 1 ≤ 2) exponent
  have bits : 2 ^ 1076 ≤ Nat.pow 10 (-(-324 : ℤ)).toNat := by decide +kernel
  refine Interval.contains_lower (significand_pos nonzero) ?_ ?_ rfl ?_ rfl
  · rw [den]
    exact Nat.pow_pos (by decide)
  · rw [den]
    exact power.trans (bits.trans (Nat.le_mul_of_pos_left _ (Nat.pow_pos (by decide))))
  · refine Nat.mul_le_mul_right _ ?_
    split <;> omega

/-- The shortest decimal of a number lies in its interval. -/
theorem rounds_shortest {x : Binary64} (finite : x.isFinite = true) (nonzero : x.isZero = false)
    (tie : Tie) : x.Rounds ((x.shortest tie).digits * 10 ^ (x.shortest tie).exponent) := by
  unfold shortest
  cases found : grids.findSome? fun exponent =>
      ((x.interval exponent).nearest tie).map fun digits => (⟨digits, exponent⟩ : Decimal) with
  | none =>
      obtain ⟨n, nearest⟩ := Interval.exists_nearest tie (contains_lowest x finite nonzero)
      have lowest : (-324 : ℤ) ∈ grids := List.mem_map.mpr ⟨632, List.mem_range.mpr (by norm_num), rfl⟩
      have none := List.findSome?_eq_none_iff.mp found (-324) lowest
      rw [nearest] at none
      cases none
  | some d =>
      obtain ⟨exponent, _, taken⟩ := List.exists_of_findSome?_eq_some found
      obtain ⟨digits, nearest, rfl⟩ := Option.map_eq_some_iff.mp taken
      exact rounds_of_contains nonzero (Interval.contains_of_nearest nearest)

end Grids

end CqlStatements.Binary64
