import Mathlib.Data.Rat.Floor
import Mathlib.Tactic.FieldSimp
import Mathlib.Tactic.Linarith
import Mathlib.Tactic.NormNum
import Mathlib.Tactic.Positivity
import Mathlib.Tactic.Ring
import TypedClient.Decimal.Binary64

/-! Which ratios round to a given number.

They lie between the middles to its two neighbours, and the middles themselves belong to an
even mantissa. A ratio is rounded in the unit that gives it 53 binary digits; just below a
power of two that unit is half the one of the number, and the mantissa carries over.
-/

set_option autoImplicit false

namespace TypedClient.Decimal

def Binary64.size (value : Binary64) : ℚ := (value.mantissa : ℚ) * 2 ^ value.exponent

/-- The neighbour below is half as far away at a power of two. -/
def Binary64.below (value : Binary64) : ℚ :=
  if value.mantissa = leastFullMantissa ∧ -1074 < value.exponent then 1 / 4 else 1 / 2

/-- Among the rationals that round to the magnitude of a number. -/
def Binary64.Covers (value : Binary64) (ratio : ℚ) : Prop :=
  let low := ((value.mantissa : ℚ) - value.below) * 2 ^ value.exponent
  let high := ((value.mantissa : ℚ) + 1 / 2) * 2 ^ value.exponent
  (low < ratio ∨ value.mantissa % 2 = 0 ∧ low = ratio) ∧
    (ratio < high ∨ value.mantissa % 2 = 0 ∧ ratio = high)

theorem two_zpow_pos (exponent : ℤ) : (0 : ℚ) < 2 ^ exponent := zpow_pos (by norm_num) exponent

theorem roundHalfEven_eq {numerator denominator nearest : ℕ}
    (low : 2 * (nearest * denominator) < 2 * numerator + denominator ∨
      nearest % 2 = 0 ∧ 2 * (nearest * denominator) = 2 * numerator + denominator)
    (high : 2 * numerator < 2 * (nearest * denominator) + denominator ∨
      nearest % 2 = 0 ∧ 2 * numerator = 2 * (nearest * denominator) + denominator)
    (positive : 0 < denominator) : roundHalfEven numerator denominator = nearest := by
  have split := Nat.div_add_mod numerator denominator
  have small := Nat.mod_lt numerator positive
  unfold roundHalfEven
  simp only
  generalize numerator / denominator = quotient at split ⊢
  generalize numerator % denominator = rest at split small ⊢
  rw [Nat.mul_comm] at split
  -- The nearest integer is the quotient or the one above it.
  have atLeast : quotient ≤ nearest := by
    by_contra less
    have step : (nearest + 1) * denominator ≤ quotient * denominator :=
      Nat.mul_le_mul_right _ (by omega)
    rw [Nat.add_mul] at step
    omega
  have atMost : nearest ≤ quotient + 1 := by
    by_contra more
    have step : (quotient + 2) * denominator ≤ nearest * denominator :=
      Nat.mul_le_mul_right _ (by omega)
    rw [Nat.add_mul] at step
    omega
  obtain rfl | rfl : nearest = quotient ∨ nearest = quotient + 1 := by omega
  · generalize nearest * denominator = whole at *
    split_ifs <;> omega
  · rw [Nat.add_mul] at low high
    generalize quotient * denominator = whole at *
    split_ifs <;> omega

section Units
variable {numerator denominator : ℕ}

theorem inUnits_ratio (positive : 0 < denominator) (exponent : ℤ) :
    ((inUnits numerator denominator exponent).1 : ℚ) / (inUnits numerator denominator exponent).2 =
      numerator / denominator / 2 ^ exponent := by
  have nonzero : (denominator : ℚ) ≠ 0 := by exact_mod_cast positive.ne'
  unfold inUnits
  simp only [Nat.pow_eq, Nat.cast_mul, Nat.cast_pow, Nat.cast_ofNat]
  obtain ⟨power, rfl | rfl⟩ := exponent.eq_nat_or_neg
  · simp [div_div]
  · simp [zpow_neg, div_eq_mul_inv]
    ring

theorem inUnits_pos (positive : 0 < denominator) (exponent : ℤ) :
    0 < (inUnits numerator denominator exponent).2 := by
  unfold inUnits
  simp only [Nat.pow_eq]
  positivity

/-- A ratio in a unit against a whole number of units. -/
theorem inUnits_lt_iff (positive : 0 < denominator) (exponent : ℤ) (count : ℕ) :
    (inUnits numerator denominator exponent).1 < (inUnits numerator denominator exponent).2 * count ↔
      (numerator / denominator : ℚ) < count * 2 ^ exponent := by
  have unit : (0 : ℚ) < (inUnits numerator denominator exponent).2 := by
    exact_mod_cast inUnits_pos positive exponent
  rw [← div_lt_iff₀ (two_zpow_pos exponent), ← inUnits_ratio positive, div_lt_iff₀ unit, mul_comm (count : ℚ)]
  exact_mod_cast Iff.rfl

theorem ratio_bounds (nonzero : numerator ≠ 0) (positive : 0 < denominator) :
    (2 : ℚ) ^ ((numerator.log2 : ℤ) - denominator.log2 - 1) ≤ numerator / denominator ∧
      (numerator / denominator : ℚ) < 2 ^ ((numerator.log2 : ℤ) - denominator.log2 + 1) := by
  have unit : (0 : ℚ) < denominator := by exact_mod_cast positive
  have lowNumerator : (2 : ℚ) ^ numerator.log2 ≤ numerator := by
    exact_mod_cast Nat.log2_self_le nonzero
  have highNumerator : (numerator : ℚ) < 2 ^ (numerator.log2 + 1) := by
    exact_mod_cast Nat.lt_log2_self
  have lowDenominator : (2 : ℚ) ^ denominator.log2 ≤ denominator := by
    exact_mod_cast Nat.log2_self_le positive.ne'
  have highDenominator : (denominator : ℚ) < 2 ^ (denominator.log2 + 1) := by
    exact_mod_cast Nat.lt_log2_self
  constructor
  · rw [le_div_iff₀ unit]
    calc (2 : ℚ) ^ ((numerator.log2 : ℤ) - denominator.log2 - 1) * denominator
        ≤ 2 ^ ((numerator.log2 : ℤ) - denominator.log2 - 1) * 2 ^ ((denominator.log2 : ℤ) + 1) := by
          refine mul_le_mul_of_nonneg_left ?_ (two_zpow_pos _).le
          exact_mod_cast highDenominator.le
      _ = 2 ^ (numerator.log2 : ℤ) := by
          rw [← zpow_add₀ (by norm_num)]
          congr 1
          ring
      _ ≤ numerator := by exact_mod_cast lowNumerator
  · rw [div_lt_iff₀ unit]
    calc (numerator : ℚ) < 2 ^ ((numerator.log2 : ℤ) + 1) := by exact_mod_cast highNumerator
      _ = 2 ^ ((numerator.log2 : ℤ) - denominator.log2 + 1) * 2 ^ (denominator.log2 : ℤ) := by
          rw [← zpow_add₀ (by norm_num)]
          congr 1
          ring
      _ ≤ 2 ^ ((numerator.log2 : ℤ) - denominator.log2 + 1) * denominator := by
          refine mul_le_mul_of_nonneg_left ?_ (two_zpow_pos _).le
          exact_mod_cast lowDenominator

/-- In its unit a ratio has at most 53 binary digits, and no fewer unless the unit is the least. -/
theorem unitExponent_spec (nonzero : numerator ≠ 0) (positive : 0 < denominator) :
    -1074 ≤ unitExponent numerator denominator ∧
      (numerator / denominator : ℚ) < 2 ^ (unitExponent numerator denominator + 53) ∧
      ((2 : ℚ) ^ (unitExponent numerator denominator + 52) ≤ numerator / denominator ∨
        unitExponent numerator denominator = -1074) := by
  obtain ⟨low, high⟩ := ratio_bounds nonzero positive
  unfold unitExponent
  simp only [inUnits_lt_iff positive]
  generalize (numerator.log2 : ℤ) - denominator.log2 = estimate at low high ⊢
  have full : ((leastFullMantissa : ℕ) : ℚ) * 2 ^ (estimate - 52) = 2 ^ estimate := by
    rw [show ((leastFullMantissa : ℕ) : ℚ) = 2 ^ (52 : ℤ) by norm_num, ← zpow_add₀ (by norm_num)]
    congr 1
    ring
  rw [full]
  generalize (numerator / denominator : ℚ) = ratio at low high ⊢
  -- The estimate is the exponent of the first digit, or one more than it.
  obtain ⟨exponent, chosen, atLeast, below⟩ : ∃ exponent,
      (if ratio < 2 ^ estimate then estimate - 53 else estimate - 52) = exponent ∧
        (2 : ℚ) ^ (exponent + 52) ≤ ratio ∧ ratio < 2 ^ (exponent + 53) := by
    split_ifs with less
    · refine ⟨_, rfl, ?_, ?_⟩
      · rwa [show estimate - 53 + 52 = estimate - 1 by ring]
      · rwa [show estimate - 53 + 53 = estimate by ring]
    · refine ⟨_, rfl, ?_, ?_⟩
      · rw [show estimate - 52 + 52 = estimate by ring]
        exact not_lt.mp less
      · rwa [show estimate - 52 + 53 = estimate + 1 by ring]
  rw [chosen]
  refine ⟨le_max_right _ _, ?_, ?_⟩
  · exact below.trans_le (zpow_le_zpow_right₀ (by norm_num) (by omega))
  · rcases le_total exponent (-1074) with least | more
    · exact .inr (max_eq_right least)
    · rw [max_eq_left more]
      exact .inl atLeast

/-- Rounding in a unit gives the integer within half a unit, the even one of two. -/
theorem roundHalfEven_inUnits {exponent : ℤ} {nearest : ℕ} (positive : 0 < denominator)
    (low : (nearest - 1 / 2 : ℚ) * 2 ^ exponent < numerator / denominator ∨
      nearest % 2 = 0 ∧ (nearest - 1 / 2 : ℚ) * 2 ^ exponent = numerator / denominator)
    (high : (numerator / denominator : ℚ) < (nearest + 1 / 2) * 2 ^ exponent ∨
      nearest % 2 = 0 ∧ (numerator / denominator : ℚ) = (nearest + 1 / 2) * 2 ^ exponent) :
    roundHalfEven (inUnits numerator denominator exponent).1
      (inUnits numerator denominator exponent).2 = nearest := by
  have power := two_zpow_pos exponent
  have unit := @inUnits_pos numerator denominator positive exponent
  have ratio := @inUnits_ratio numerator denominator positive exponent
  rw [← lt_div_iff₀ power, ← eq_div_iff power.ne', ← ratio] at low
  rw [← div_lt_iff₀ power, ← div_eq_iff power.ne', ← ratio] at high
  generalize (inUnits numerator denominator exponent).1 = scaled at *
  generalize (inUnits numerator denominator exponent).2 = whole at *
  have wholePositive : (0 : ℚ) < whole := by exact_mod_cast unit
  rw [lt_div_iff₀ wholePositive, eq_div_iff wholePositive.ne'] at low
  rw [div_lt_iff₀ wholePositive, div_eq_iff wholePositive.ne'] at high
  refine roundHalfEven_eq ?_ ?_ unit
  · refine low.imp (fun less => ?_) (And.imp_right fun same => ?_)
    · have : (2 * (nearest * whole) : ℚ) < 2 * scaled + whole := by linarith
      exact_mod_cast this
    · have : (2 * (nearest * whole) : ℚ) = 2 * scaled + whole := by linarith
      exact_mod_cast this
  · refine high.imp (fun less => ?_) (And.imp_right fun same => ?_)
    · have : (2 * scaled : ℚ) < 2 * (nearest * whole) + whole := by linarith
      exact_mod_cast this
    · have : (2 * scaled : ℚ) = 2 * (nearest * whole) + whole := by linarith
      exact_mod_cast this

end Units

section Covers
variable {value : Binary64} {numerator denominator : ℕ}

theorem two_zpow_add (exponent : ℤ) (shift : ℕ) : (2 : ℚ) ^ (exponent + shift) = 2 ^ shift * 2 ^ exponent := by
  rw [zpow_add₀ (by norm_num), zpow_natCast, mul_comm]

theorem lt_of_two_zpow_lt {left right : ℤ} (less : (2 : ℚ) ^ left < 2 ^ right) : left < right :=
  (zpow_lt_zpow_iff_right₀ (by norm_num)).mp less

section Ratio
variable {ratio : ℚ}

theorem Binary64.Covers.lt (covers : value.Covers ratio) : ratio < 2 ^ (value.exponent + (53 : ℕ)) := by
  have power := two_zpow_pos value.exponent
  have bound : (value.mantissa : ℚ) + 1 ≤ 2 ^ 53 := by exact_mod_cast value.representable.1
  rw [two_zpow_add]
  rcases covers.2 with high | ⟨-, high⟩ <;> nlinarith

/-- Only the least full mantissa covers ratios with one digit less than it has. -/
theorem Binary64.Covers.mantissa_eq (covers : value.Covers ratio)
    (small : ratio < 2 ^ (value.exponent + (52 : ℕ))) (normal : -1074 < value.exponent) :
    value.mantissa = leastFullMantissa := by
  have power := two_zpow_pos value.exponent
  obtain ⟨low, -⟩ := covers
  rw [two_zpow_add] at small
  by_contra other
  have larger : (2 : ℚ) ^ 52 + 1 ≤ value.mantissa := by
    have full := value.representable.2.2.2
    have : leastFullMantissa + 1 ≤ value.mantissa := by omega
    exact_mod_cast this
  rw [below, if_neg (by simp [other])] at low
  rcases low with low | ⟨-, low⟩ <;> nlinarith

/-- They are no less than a quarter of its unit below it. -/
theorem Binary64.Covers.low (covers : value.Covers ratio) (least : value.mantissa = leastFullMantissa)
    (normal : -1074 < value.exponent) : (leastFullMantissa - 1 / 4 : ℚ) * 2 ^ value.exponent ≤ ratio := by
  obtain ⟨low, -⟩ := covers
  rw [below, if_pos ⟨least, normal⟩, least] at low
  rcases low with low | ⟨-, low⟩
  · exact low.le
  · exact low.le

/-- Where a mantissa is not carried over, ratios are within half a unit of the number. -/
theorem Binary64.Covers.low_half (covers : value.Covers ratio)
    (large : 2 ^ (value.exponent + (52 : ℕ)) ≤ ratio ∨ value.exponent = -1074) :
    (value.mantissa - 1 / 2 : ℚ) * 2 ^ value.exponent < ratio ∨
      value.mantissa % 2 = 0 ∧ (value.mantissa - 1 / 2 : ℚ) * 2 ^ value.exponent = ratio := by
  have power := two_zpow_pos value.exponent
  have low := covers.1
  unfold below at low
  split_ifs at low with narrow
  · obtain ⟨least, normal⟩ := narrow
    have large := large.resolve_right normal.ne'
    rw [two_zpow_add] at large
    rw [least]
    norm_num at large ⊢
    exact .inl (by linarith)
  · exact low

end Ratio

section Rounding
variable (covers : value.Covers (numerator / denominator)) (positive : 0 < denominator)
  (nonzero : numerator ≠ 0)
include covers positive nonzero

/-- The unit is no larger than that of the number. -/
theorem Binary64.Covers.unitExponent_le : unitExponent numerator denominator ≤ value.exponent := by
  obtain ⟨-, -, more⟩ := unitExponent_spec nonzero positive
  rcases more with more | least
  · have := lt_of_two_zpow_lt (more.trans_lt covers.lt)
    omega
  · rw [least]
    exact value.representable.2.1

theorem Binary64.Covers.unitExponent_eq
    (large : (2 : ℚ) ^ (value.exponent + (52 : ℕ)) ≤ numerator / denominator ∨ value.exponent = -1074) :
    unitExponent numerator denominator = value.exponent := by
  obtain ⟨atLeast, less, -⟩ := unitExponent_spec nonzero positive
  have atMost := covers.unitExponent_le positive nonzero
  rcases large with large | least
  · have := lt_of_two_zpow_lt (large.trans_lt less)
    omega
  · omega

/-- Below a power of two the unit is half as large. -/
theorem Binary64.Covers.unitExponent_eq_sub_one
    (small : (numerator / denominator : ℚ) < 2 ^ (value.exponent + (52 : ℕ)))
    (normal : -1074 < value.exponent) : unitExponent numerator denominator = value.exponent - 1 := by
  obtain ⟨-, less, more⟩ := unitExponent_spec nonzero positive
  have power := two_zpow_pos value.exponent
  have low := covers.low (covers.mantissa_eq small normal) normal
  have quarter : (2 : ℚ) ^ (value.exponent + (51 : ℕ)) < numerator / denominator := by
    rw [two_zpow_add]
    norm_num at low
    nlinarith
  have notLess := lt_of_two_zpow_lt (quarter.trans less)
  rcases more with more | least
  · have notMore := lt_of_two_zpow_lt (more.trans_lt small)
    omega
  · omega

/-- Below a power of two rounding carries over to it. -/
theorem Binary64.Covers.roundRatio_carrying
    (small : (numerator / denominator : ℚ) < 2 ^ (value.exponent + (52 : ℕ)))
    (normal : -1074 < value.exponent) :
    roundRatio numerator denominator = (leastFullMantissa, value.exponent) := by
  have unit := covers.unitExponent_eq_sub_one positive nonzero small normal
  have low := covers.low (covers.mantissa_eq small normal) normal
  have half : (2 : ℚ) ^ (value.exponent - 1) = 2 ^ value.exponent / 2 := by
    rw [zpow_sub₀ (by norm_num), zpow_one]
  have power := two_zpow_pos value.exponent
  rw [two_zpow_add] at small
  norm_num at low small
  unfold Decimal.roundRatio
  rw [if_neg nonzero]
  simp only
  rw [unit, @roundHalfEven_inUnits numerator denominator _ mantissaBound positive, if_pos rfl, sub_add_cancel]
  · norm_num [half]
    rcases low.lt_or_eq with low | low
    · exact .inl (by linarith)
    · exact .inr (by linarith)
  · norm_num [half]
    exact .inl (by linarith)

/-- Every ratio that a number covers rounds to it, in whatever terms it is given. -/
theorem Binary64.Covers.roundRatio :
    roundRatio numerator denominator = (value.mantissa, value.exponent) := by
  obtain ⟨bounded, least, -, -⟩ := value.representable
  by_cases carries : (numerator / denominator : ℚ) < 2 ^ (value.exponent + (52 : ℕ)) ∧ -1074 < value.exponent
  case pos =>
    obtain ⟨small, normal⟩ := carries
    rw [covers.mantissa_eq small normal]
    exact covers.roundRatio_carrying positive nonzero small normal
  case neg =>
    have large : (2 : ℚ) ^ (value.exponent + (52 : ℕ)) ≤ numerator / denominator ∨ value.exponent = -1074 := by
      rcases not_and_or.mp carries with large | other
      · exact .inl (not_lt.mp large)
      · exact .inr (by omega)
    unfold Decimal.roundRatio
    rw [if_neg nonzero]
    simp only
    rw [covers.unitExponent_eq positive nonzero large,
      roundHalfEven_inUnits positive (covers.low_half large) covers.2, if_neg (by omega)]

end Rounding

/-- Reading a ratio that a number covers gives the number. -/
theorem Binary64.Covers.ofRatio? (covers : value.Covers (numerator / denominator))
    (positive : 0 < denominator) (nonzero : numerator ≠ 0) :
    ofRatio? value.negative numerator denominator = some value := by
  unfold Binary64.ofRatio?
  rw [covers.roundRatio positive nonzero]
  simp only
  rw [dif_pos value.representable]

theorem Binary64.covers_size : value.Covers value.size := by
  have power := two_zpow_pos value.exponent
  unfold Covers below size
  constructor
  · left
    split_ifs <;> nlinarith
  · left
    nlinarith

/-- No ratio is rounded down from a power of two that mantissas do not reach. -/
theorem Binary64.Covers.lt_two_pow {ratio : ℚ} {bits : ℕ} (covers : value.Covers ratio)
    (many : 53 ≤ bits) (small : value.size < 2 ^ bits) : ratio < 2 ^ bits := by
  obtain ⟨bounded, -, -, full⟩ := value.representable
  have power := two_zpow_pos value.exponent
  have mantissa : (value.mantissa : ℚ) + 1 ≤ 2 ^ 53 := by exact_mod_cast bounded
  have high : ratio ≤ ((value.mantissa : ℚ) + 1 / 2) * 2 ^ value.exponent := by
    rcases covers.2 with below | ⟨-, same⟩
    · exact below.le
    · exact same.le
  rcases le_or_gt value.exponent ((bits : ℤ) - 53) with low | beyond
  · calc ratio ≤ ((value.mantissa : ℚ) + 1 / 2) * 2 ^ value.exponent := high
      _ < 2 ^ 53 * 2 ^ value.exponent := by nlinarith
      _ ≤ 2 ^ 53 * 2 ^ ((bits : ℤ) - 53) := by gcongr; norm_num
      _ = 2 ^ bits := by
        rw [zpow_sub₀ (by norm_num), zpow_natCast]
        field_simp
  · exfalso
    have least : ((2 : ℚ) ^ 52) ≤ value.mantissa := by
      rcases full with full | least
      · exact_mod_cast full
      · omega
    have : (2 : ℚ) ^ bits ≤ value.size := by
      calc (2 : ℚ) ^ bits = 2 ^ 52 * 2 ^ ((bits : ℤ) - 52) := by
            rw [zpow_sub₀ (by norm_num), zpow_natCast]
            field_simp
        _ ≤ 2 ^ 52 * 2 ^ value.exponent := by
            gcongr
            · norm_num
            · omega
        _ ≤ value.mantissa * 2 ^ value.exponent := by gcongr
    linarith

end Covers

end TypedClient.Decimal
