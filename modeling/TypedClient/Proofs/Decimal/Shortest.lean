import TypedClient.Decimal.Shortest
import TypedClient.Proofs.Decimal.Rounding

/-! The shortest decimal of a number reads back to it.

A decimal is taken from a grid only if it lies among the rationals that round to the number,
and the exact value, which is taken if no grid has one, lies there too. Dropping zeros at the
end changes the digits and the exponent, not the value.
-/

set_option autoImplicit false

namespace TypedClient.Decimal

def Scaled.toRat (decimal : Scaled) : ℚ := (decimal.digits : ℚ) * 10 ^ decimal.exponent

theorem ten_zpow_pos (exponent : ℤ) : (0 : ℚ) < 10 ^ exponent := zpow_pos (by norm_num) exponent

/-- A power with an exponent of either sign, brought to natural exponents. -/
theorem zpow_mul_toNat {base : ℚ} (nonzero : base ≠ 0) (exponent : ℤ) :
    base ^ exponent * base ^ (-exponent).toNat = base ^ exponent.toNat := by
  rw [← zpow_natCast, ← zpow_natCast, ← zpow_add₀ nonzero]
  congr 1
  omega

theorem compare_natCast (left right : ℕ) : compare (left : ℚ) right = compare left right := by
  rcases lt_trichotomy left right with less | same | more
  · rw [compare_lt_iff_lt.mpr less, compare_lt_iff_lt.mpr (by exact_mod_cast less)]
  · rw [compare_eq_iff_eq.mpr same, compare_eq_iff_eq.mpr (by exact_mod_cast same)]
  · rw [compare_gt_iff_gt.mpr more, compare_gt_iff_gt.mpr (by exact_mod_cast more)]

theorem compare_mul_right {left right scale : ℚ} (positive : 0 < scale) :
    compare (left * scale) (right * scale) = compare left right := by
  rcases lt_trichotomy left right with less | same | more
  · rw [compare_lt_iff_lt.mpr less, compare_lt_iff_lt.mpr (mul_lt_mul_of_pos_right less positive)]
  · rw [same, compare_eq_iff_eq.mpr rfl, compare_eq_iff_eq.mpr rfl]
  · rw [compare_gt_iff_gt.mpr more, compare_gt_iff_gt.mpr (mul_lt_mul_of_pos_right more positive)]

theorem compareScaled_eq (left : ℕ) (leftExponent : ℤ) (right : ℕ) (rightExponent : ℤ) :
    compareScaled left leftExponent right rightExponent =
      compare ((left : ℚ) * 10 ^ leftExponent) ((right : ℚ) * 2 ^ rightExponent) := by
  -- Both sides in units of the two powers that the negative exponents ask for.
  have positive : (0 : ℚ) < 2 ^ (-rightExponent).toNat * 10 ^ (-leftExponent).toNat := by positivity
  rw [← compare_mul_right positive, compareScaled, ← compare_natCast]
  simp only [Nat.pow_eq, Nat.cast_mul, Nat.cast_pow, Nat.cast_ofNat]
  rw [← zpow_mul_toNat (by norm_num) leftExponent, ← zpow_mul_toNat (by norm_num) rightExponent]
  congr 1 <;> ring

section Interval
variable {value : Binary64} {decimal : Scaled}

theorem quarter_zpow (exponent : ℤ) : (2 : ℚ) ^ (exponent - 2) = 2 ^ exponent / 4 := by
  rw [zpow_sub₀ (by norm_num)]
  norm_num

theorem narrowBelow_iff :
    narrowBelow value = true ↔ value.mantissa = leastFullMantissa ∧ -1074 < value.exponent := by
  simp [narrowBelow]

theorem covers_of_readsBack (nonzero : value.mantissa ≠ 0) (found : readsBack value decimal = true) :
    value.Covers decimal.toRat := by
  have power := two_zpow_pos value.exponent
  -- The ends of the interval, in quarters of a unit.
  have low : (((if narrowBelow value then 4 * value.mantissa - 1 else 4 * value.mantissa - 2 : ℕ) : ℚ) *
      2 ^ (value.exponent - 2)) = (value.mantissa - value.below) * 2 ^ value.exponent := by
    rw [quarter_zpow]
    unfold Binary64.below
    simp only [narrowBelow_iff]
    split_ifs
    · rw [Nat.cast_sub (by omega)]
      push_cast
      ring
    · rw [Nat.cast_sub (by omega)]
      push_cast
      ring
  have high : (((4 * value.mantissa + 2 : ℕ) : ℚ) * 2 ^ (value.exponent - 2)) =
      (value.mantissa + 1 / 2) * 2 ^ value.exponent := by
    rw [quarter_zpow]
    push_cast
    ring
  simp only [readsBack, compareScaled_eq, low, high, Bool.and_eq_true, Bool.or_eq_true, beq_iff_eq,
    compare_gt_iff_gt, compare_lt_iff_lt, compare_eq_iff_eq] at found
  obtain ⟨above, below⟩ := found
  refine ⟨above.imp id fun ⟨even, same⟩ => ⟨even, same.symm⟩, below⟩

theorem covers_of_onGrid {tie : Tie} {exponent : ℤ} (nonzero : value.mantissa ≠ 0)
    (found : onGrid? tie value exponent = some decimal) : value.Covers decimal.toRat := by
  apply covers_of_readsBack nonzero
  unfold onGrid? at found
  simp only at found
  split at found
  case h_1 below above =>
    cases found
    unfold nearer
    split
    · exact below
    · exact above
    · split
      · exact above
      · split <;> assumption
  case h_2 below _ =>
    cases found
    exact below
  case h_3 _ above =>
    cases found
    exact above
  case h_4 => cases found

theorem toRat_exact (value : Binary64) : (exact value).toRat = value.size := by
  unfold exact Scaled.toRat Binary64.size
  split_ifs with whole
  · obtain ⟨power, same⟩ := Int.eq_ofNat_of_zero_le whole
    rw [same]
    simp
  · obtain ⟨power, same⟩ : ∃ power : ℕ, value.exponent = -power := ⟨value.exponent.natAbs, by omega⟩
    rw [same]
    simp only [neg_neg, Int.toNat_natCast, Nat.pow_eq, Nat.cast_mul, Nat.cast_pow, Nat.cast_ofNat,
      zpow_neg, zpow_natCast]
    rw [show (10 : ℚ) = 5 * 2 by norm_num, mul_pow]
    field_simp

theorem toRat_strip (limit : ℕ) (decimal : Scaled) : (decimal.strip limit).toRat = decimal.toRat := by
  induction limit generalizing decimal with
  | zero => rfl
  | succ limit ih =>
    unfold Scaled.strip
    split_ifs with zero
    · simp only [Bool.and_eq_true, beq_iff_eq] at zero
      rw [ih]
      unfold Scaled.toRat
      have tens : (decimal.digits : ℚ) = 10 * (decimal.digits / 10 : ℕ) := by
        have : decimal.digits = 10 * (decimal.digits / 10) := by omega
        exact_mod_cast this
      rw [zpow_add₀ (by norm_num), tens]
      norm_num
      ring
    · rfl

theorem covers_shortest {tie : Tie} (nonzero : value.mantissa ≠ 0) :
    value.Covers (shortest tie value).toRat := by
  unfold shortest
  rw [if_neg (by simpa [Binary64.isZero] using nonzero)]
  simp only
  rw [toRat_strip]
  cases found : (List.range 17).findSome? fun count : ℕ =>
      onGrid? tie value (magnitude value - (count + 1)) with
  | none =>
    rw [Option.getD_none, toRat_exact]
    exact Binary64.covers_size
  | some decimal =>
    obtain ⟨count, -, taken⟩ := List.exists_of_findSome?_eq_some found
    exact covers_of_onGrid nonzero taken

end Interval

end TypedClient.Decimal
