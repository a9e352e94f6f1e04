/-
  ChatMarkup/Proofs/Decimal/Rounding.lean
  =======================================
  **Rounding is exact** — the integers that rounding computes are the nearest ones to the exact
  value of a real, halfway the even ones (`isNearest_roundTo`), and rounding to significant
  digits does just that (`roundsTo_significant`).

  A value just below a power of ten can be rounded up to it.  It has a digit more then than the
  value that it comes from, and its last digit stands in units ten times as large.  Rounding the
  value to these units gives the same result (`Magnitude.roundTo_carried`), so it makes no
  difference whether the digits are counted before or after.
-/
import ChatMarkup.Decimal.Exact
import Mathlib.Tactic.FieldSimp
import Mathlib.Tactic.Linarith
import Mathlib.Tactic.Positivity
import Mathlib.Tactic.Ring

namespace ChatMarkup.Decimal

variable {q r : ℚ} {n k e : ℤ} {m : Magnitude} {count : Nat}

/-! ### Nearest integers -/

/-- Of two nearest integers neither is less: both would be halfway, on either side of the number,
    and both would be even. -/
theorem IsNearest.le (nearest : IsNearest q n) (nearest' : IsNearest q k) : k ≤ n := by
  obtain ⟨near, even⟩ := nearest
  obtain ⟨near', even'⟩ := nearest'
  obtain ⟨-, above⟩ := abs_le.mp near
  obtain ⟨below, -⟩ := abs_le.mp near'
  by_contra less
  have step : (n : ℚ) + 1 ≤ k := by exact_mod_cast Int.not_le.mp less
  have half : q - n = 1 / 2 := by linarith
  have half' : q - k = -(1 / 2) := by linarith
  obtain ⟨a, rfl⟩ := even (by rw [half]; norm_num)
  obtain ⟨b, rfl⟩ := even' (by rw [half']; norm_num)
  have apart : ((b + b : ℤ) : ℚ) = (a + a : ℤ) + 1 := by linarith
  have apart' : b + b = a + a + 1 := by exact_mod_cast apart
  omega

/-- There is only one nearest integer. -/
theorem IsNearest.unique (nearest : IsNearest q n) (nearest' : IsNearest q k) : n = k :=
  Int.le_antisymm (nearest'.le nearest) (nearest.le nearest')

theorem IsNearest.neg (nearest : IsNearest q n) : IsNearest (-q) (-n) := by
  have distance : |(-q) - ((-n : ℤ) : ℚ)| = |q - n| := by
    rw [Int.cast_neg, neg_sub_neg, abs_sub_comm]
  obtain ⟨near, even⟩ := nearest
  refine ⟨distance.trans_le near, ?_⟩
  intro half
  exact (even (distance.symm.trans half)).neg

/-- Rounding does not cross an integer. -/
theorem IsNearest.le_of_le (nearest : IsNearest q n) (above : (k : ℚ) ≤ q) : k ≤ n := by
  obtain ⟨-, near⟩ := abs_le.mp nearest.1
  have bound : (k : ℚ) < n + 1 := by linarith
  have bound' : k < n + 1 := by exact_mod_cast bound
  omega

theorem IsNearest.ge_of_ge (nearest : IsNearest q n) (below : q ≤ k) : n ≤ k := by
  obtain ⟨near, -⟩ := abs_le.mp nearest.1
  have bound : (n : ℚ) < k + 1 := by linarith
  have bound' : n < k + 1 := by exact_mod_cast bound
  omega

theorem isNearest_of_lt (near : |q - n| < 1 / 2) : IsNearest q n :=
  ⟨near.le, fun half => absurd half near.ne⟩

/-- Zero is even, so it is taken up to half a unit away. -/
theorem isNearest_zero_iff : IsNearest q 0 ↔ |q| ≤ 1 / 2 := by
  simp [IsNearest]

/-- A quotient halfway between two integers leaves half the divisor. -/
theorem two_mul_mod_of_half {num den units : Nat} (positive : 0 < den)
    (half : |(num : ℚ) - den * units| = 1 / 2 * den) : 2 * (num % den) = den := by
  obtain ⟨whole, split⟩ : ∃ whole, 2 * num = den + 2 * den * whole := by
    rcases abs_cases ((num : ℚ) - den * units) with ⟨same, -⟩ | ⟨same, -⟩
    · have twice : (2 * num : ℚ) = den + 2 * den * units := by linarith
      exact ⟨units, by exact_mod_cast twice⟩
    · have twice : (2 * num + den : ℚ) = 2 * den * units := by linarith
      have twice' : 2 * num + den = 2 * den * units := by exact_mod_cast twice
      obtain ⟨fewer, rfl⟩ : ∃ fewer, units = fewer + 1 := by
        apply Nat.exists_eq_add_one_of_ne_zero
        rintro rfl
        omega
      rw [Nat.mul_add] at twice'
      exact ⟨fewer, by omega⟩
  rw [← Nat.mul_mod_mul_left, split, Nat.add_mul_mod_self_left, Nat.mod_eq_of_lt (by omega)]

/-- **The rounded quotient is the nearest integer.** -/
theorem isNearest_roundDiv (num den : Nat) (positive : 0 < den) :
    IsNearest ((num : ℚ) / den) (roundDiv num den) := by
  obtain ⟨below, above⟩ := roundDiv_near num den positive
  have den_pos : (0 : ℚ) < den := by exact_mod_cast positive
  have below' : (2 : ℚ) * (den * roundDiv num den) ≤ 2 * num + den := by exact_mod_cast below
  have above' : (2 : ℚ) * num ≤ 2 * (den * roundDiv num den) + den := by exact_mod_cast above
  -- over a common denominator both bounds are those of `roundDiv`
  have distance : (num : ℚ) / den - (roundDiv num den : ℤ) =
      (num - den * roundDiv num den) / den := by
    rw [Int.cast_natCast]
    field_simp
  constructor
  · rw [distance, abs_le]
    constructor
    · rw [le_div_iff₀ den_pos]
      linarith
    · rw [div_le_iff₀ den_pos]
      linarith
  · intro half
    rw [distance, abs_div, abs_of_pos den_pos, div_eq_iff den_pos.ne'] at half
    have even := roundDiv_tie num den (two_mul_mod_of_half positive half)
    exact ⟨roundDiv num den / 2, by omega⟩

/-! ### Values as quotients -/

theorem zpow_eq_div (base : Nat) (positive : 0 < base) (e : ℤ) :
    (base : ℚ) ^ e = (Nat.pow base e.toNat : ℕ) / (Nat.pow base (-e).toNat : ℕ) := by
  have nonzero : (base : ℚ) ≠ 0 := by exact_mod_cast positive.ne'
  simp only [Nat.pow_eq, Nat.cast_pow]
  rw [← zpow_natCast, ← zpow_natCast, ← zpow_sub₀ nonzero]
  congr 1
  omega

namespace Magnitude

theorem toRat_eq (m : Magnitude) : m.toRat = (m.num : ℚ) / m.den := by
  have power := zpow_eq_div 2 (by decide) m.exponent
  rw [Nat.cast_ofNat] at power
  rw [toRat, power, num, den, twoPow, twoPow, Nat.cast_mul, mul_div_assoc]

theorem toRat_mul_zpow (m : Magnitude) (places : ℤ) :
    m.toRat * 10 ^ places = (m.scaledNum places : ℚ) / m.scaledDen places := by
  have power := zpow_eq_div 10 (by decide) places
  rw [Nat.cast_ofNat] at power
  rw [toRat_eq, power, scaledNum, scaledDen, tenPow, tenPow, Nat.cast_mul, Nat.cast_mul,
    div_mul_div_comm]

/-- **Decimal places are rounded exactly.** -/
theorem isNearest_roundTo (m : Magnitude) (places : ℤ) :
    IsNearest (m.toRat * 10 ^ places) (m.roundTo places) := by
  rw [toRat_mul_zpow]
  exact isNearest_roundDiv _ _ (m.scaledDen_pos places)

theorem toRat_pos (nonzero : m.significand ≠ 0) : 0 < m.toRat := by
  have positive : (0 : ℚ) < m.significand := by exact_mod_cast Nat.pos_of_ne_zero nonzero
  rw [toRat]
  positivity

end Magnitude

/-! ### Nothing left -/

theorem Magnitude.roundTo_eq_zero_iff (m : Magnitude) (places : Nat) :
    m.roundTo places = 0 ↔ IsNearest (m.toRat * 10 ^ places) 0 := by
  have nearest := m.isNearest_roundTo places
  rw [zpow_natCast] at nearest
  constructor
  · intro zero
    rw [zero] at nearest
    exact nearest
  · intro nearest'
    exact_mod_cast nearest.unique nearest'

theorem Binary64.roundsToZero_finite (negative : Bool) (m : Magnitude) (places : Nat) :
    (finite negative m).RoundsToZero places ↔ m.roundTo places = 0 := by
  have isFinite : (finite negative m).isFinite = true := rfl
  have magnitude : |(finite negative m).toRat * 10 ^ places| =
      |m.toRat * 10 ^ places| := by
    cases negative with
    | false => rfl
    | true => rw [toRat, if_pos rfl, neg_mul, abs_neg]
  rw [Magnitude.roundTo_eq_zero_iff, RoundsToZero, and_iff_right isFinite, isNearest_zero_iff,
    magnitude, isNearest_zero_iff]

/-! ### The leading digit -/

/-- The power of ten at or below a number is the one that brackets it. -/
theorem log_eq_of_bounds (positive : 0 < q) (below : (10 : ℚ) ^ e ≤ q)
    (above : q < 10 ^ (e + 1)) : Int.log 10 q = e := by
  have lower := (Int.zpow_le_iff_le_log (b := 10) (by decide) positive).mp (by exact_mod_cast below)
  have upper := (Int.lt_zpow_iff_log_lt (b := 10) (by decide) positive).mp (by exact_mod_cast above)
  omega

theorem digitCount_bounds {n : Nat} (nonzero : n ≠ 0) :
    Nat.pow 10 (Magnitude.digitCount n - 1) ≤ n ∧ n < Nat.pow 10 (Magnitude.digitCount n) ∧
      1 ≤ Magnitude.digitCount n := by
  have some : 0 < (ofNat n).length := Nat.length_toDigits_pos
  rw [Magnitude.digitCount, if_neg nonzero]
  refine ⟨?_, (Nat.length_toDigits_le_iff (by decide) some).mp (Nat.le_refl _), some⟩
  by_cases single : (ofNat n).length = 1
  · rw [single]
    exact Nat.pos_of_ne_zero nonzero
  · apply Nat.le_of_not_lt
    intro less
    have shorter := (Nat.length_toDigits_le_iff (b := 10) (by decide) (by omega)).mpr less
    rw [← ofNat] at shorter
    omega

/-- **The leading digit is counted right.**  Below one, the digits are counted of the greatest
    integer less than the inverse, which has one digit fewer than the inverse just at the powers
    of ten. -/
theorem Magnitude.leading_eq (nonzero : m.significand ≠ 0) : m.leading = Int.log 10 m.toRat := by
  have positive := toRat_pos nonzero
  have den_pos : (0 : ℚ) < m.den := by exact_mod_cast m.den_pos
  have num_pos : 0 < m.num := by
    rw [toRat_eq] at positive
    exact_mod_cast (div_pos_iff_of_pos_right den_pos).mp positive
  rw [eq_comm, leading]
  by_cases large : m.den ≤ m.num
  -- from one on, the whole part has all the digits in front of the point
  · rw [if_pos large]
    have whole : m.num / m.den ≠ 0 := (Nat.div_pos large m.den_pos).ne'
    obtain ⟨below, above, some⟩ := digitCount_bounds whole
    apply log_eq_of_bounds positive
    · have scaled : Nat.pow 10 (digitCount (m.num / m.den) - 1) * m.den ≤ m.num :=
        Nat.mul_le_of_le_div _ _ _ below
      rw [toRat_eq, le_div_iff₀ den_pos, ← Nat.cast_one, ← Nat.cast_sub some, zpow_natCast]
      exact_mod_cast scaled
    · have scaled := (Nat.div_lt_iff_lt_mul m.den_pos).mp above
      rw [toRat_eq, div_lt_iff₀ den_pos, sub_add_cancel, zpow_natCast]
      exact_mod_cast scaled
  -- below one, the bounds of the reciprocal are turned over
  · rw [if_neg large]
    have whole : (m.den - 1) / m.num ≠ 0 := (Nat.div_pos (by omega) num_pos).ne'
    obtain ⟨below, above, some⟩ := digitCount_bounds whole
    generalize digitCount ((m.den - 1) / m.num) = digits at below above some
    rw [Nat.pow_eq] at below above
    apply log_eq_of_bounds positive
    · have scaled : m.den ≤ 10 ^ digits * m.num := by
        have := (Nat.div_lt_iff_lt_mul num_pos).mp above
        omega
      rw [toRat_eq, le_div_iff₀ den_pos, zpow_neg, zpow_natCast, inv_mul_le_iff₀ (by positivity)]
      exact_mod_cast scaled
    · have scaled : 10 ^ (digits - 1) * m.num < m.den := by
        have := Nat.mul_le_of_le_div _ _ _ below
        omega
      have exponent : -(digits : ℤ) + 1 = -((digits - 1 : ℕ) : ℤ) := by omega
      rw [toRat_eq, div_lt_iff₀ den_pos, exponent, zpow_neg, zpow_natCast,
        lt_inv_mul_iff₀ (by positivity)]
      exact_mod_cast scaled

/-! ### Significant digits -/

/-- A value that is rounded to a power of ten is rounded to it in units ten times as large too: it
    is half a unit away at most, and that is a twentieth of the larger one. -/
theorem Magnitude.roundTo_carried {places : ℤ} (some : 1 ≤ count)
    (carried : m.roundTo places = 10 ^ count) : m.roundTo (places - 1) = 10 ^ (count - 1) := by
  obtain ⟨below, above⟩ := abs_le.mp (m.isNearest_roundTo places).1
  rw [carried] at below above
  push_cast at below above
  have tenth : m.toRat * 10 ^ (places - 1) = m.toRat * 10 ^ places / 10 := by
    rw [zpow_sub_one₀ (by norm_num)]
    ring
  have power : (10 : ℚ) ^ count = 10 * 10 ^ (count - 1) := by
    rw [← pow_succ', Nat.sub_add_cancel some]
  -- half a unit is a twentieth of the next greater one, so nothing is nearer
  have nearest : IsNearest (m.toRat * 10 ^ (places - 1)) (10 ^ (count - 1) : ℕ) := by
    apply isNearest_of_lt
    rw [tenth, abs_lt]
    push_cast
    constructor
    · linarith
    · linarith
  exact_mod_cast (m.isNearest_roundTo _).unique nearest

section
variable (nonzero : m.significand ≠ 0) (some : 1 ≤ count)
include nonzero some

/-- In units of the last of its significant digits, a value is a number with that many digits. -/
theorem Magnitude.scaled_bounds :
    (10 : ℚ) ^ (count - 1) ≤ m.toRat * 10 ^ (-(m.leading + 1 - count)) ∧
      m.toRat * 10 ^ (-(m.leading + 1 - count)) < 10 ^ count := by
  have positive := toRat_pos nonzero
  have below := Int.zpow_log_le_self (b := 10) (by decide) positive
  have above := Int.lt_zpow_succ_log_self (b := 10) (by decide) m.toRat
  rw [leading_eq nonzero]
  rw [Nat.cast_ofNat] at below above
  have unit : (0 : ℚ) < 10 ^ (-(Int.log 10 m.toRat + 1 - count)) := by positivity
  constructor
  · calc
      (10 : ℚ) ^ (count - 1) =
          10 ^ Int.log 10 m.toRat * 10 ^ (-(Int.log 10 m.toRat + 1 - count)) := by
        rw [← zpow_add₀ (by norm_num), ← zpow_natCast]
        congr 1
        omega
      _ ≤ _ := mul_le_mul_of_nonneg_right below unit.le
  · calc
      _ < (10 : ℚ) ^ (Int.log 10 m.toRat + 1) * 10 ^ (-(Int.log 10 m.toRat + 1 - count)) :=
        mul_lt_mul_of_pos_right above unit
      _ = 10 ^ count := by
        rw [← zpow_add₀ (by norm_num), ← zpow_natCast]
        congr 1
        omega

/-- The digits are as many as asked for, and they are the value rounded to the places that they
    reach. -/
theorem Magnitude.significant_digits :
    10 ^ (count - 1) ≤ (m.significant count).digits ∧ (m.significant count).digits < 10 ^ count ∧
      m.roundTo (-(m.significant count).exponent) = (m.significant count).digits := by
  obtain ⟨below, above⟩ := scaled_bounds nonzero some
  have nearest := m.isNearest_roundTo (-(m.leading + 1 - count))
  -- rounding keeps to bounds that are integers themselves
  have lower : 10 ^ (count - 1) ≤ m.roundTo (-(m.leading + 1 - count)) := by
    have := nearest.le_of_le (k := (10 ^ (count - 1) : ℕ)) (by exact_mod_cast below)
    exact_mod_cast this
  have upper : m.roundTo (-(m.leading + 1 - count)) ≤ 10 ^ count := by
    have := nearest.ge_of_ge (k := (10 ^ count : ℕ)) (by exact_mod_cast above.le)
    exact_mod_cast this
  have power : (10 : ℕ) ^ count = 10 * 10 ^ (count - 1) := by
    rw [← Nat.pow_succ', Nat.succ_eq_add_one, Nat.sub_add_cancel some]
  rw [significant]
  split
  · rename_i carried
    dsimp only [tenPow] at carried ⊢
    rw [Nat.pow_eq] at carried ⊢
    have digits : (0 : ℕ) < 10 ^ (count - 1) := Nat.pow_pos (by decide)
    refine ⟨Nat.le_refl _, by omega, ?_⟩
    rw [neg_add, ← sub_eq_add_neg]
    exact roundTo_carried some carried
  · rename_i kept
    dsimp only [tenPow] at kept ⊢
    rw [Nat.pow_eq] at kept
    exact ⟨lower, by omega, rfl⟩

/-- **Significant digits are rounded exactly.** -/
theorem Magnitude.roundsTo_significant : RoundsTo count m.toRat (m.significant count).toRat := by
  have nearest := m.isNearest_roundTo (-(m.leading + 1 - count))
  refine ⟨m.roundTo (-(m.leading + 1 - count)), ?_, ?_⟩
  · rw [abs_of_pos (toRat_pos nonzero), ← leading_eq nonzero, div_eq_mul_inv, ← zpow_neg]
    exact nearest
  · rw [abs_of_pos (toRat_pos nonzero), ← leading_eq nonzero, Scaled.toRat, significant]
    split
    · rename_i carried
      have power : (10 : ℚ) ^ count = 10 ^ (count - 1) * 10 := by
        rw [← pow_succ, Nat.sub_add_cancel some]
      rw [carried, tenPow, tenPow, Nat.pow_eq, Nat.pow_eq, zpow_add_one₀ (by norm_num)]
      push_cast
      rw [power]
      ring
    · rfl

theorem Magnitude.toRat_significant_pos : 0 < (m.significant count).toRat := by
  obtain ⟨below, -, -⟩ := significant_digits nonzero some
  have digits : 0 < (m.significant count).digits := lt_of_lt_of_le (by positivity) below
  rw [Scaled.toRat]
  positivity

/-- The power of ten of the leading digit, after rounding. -/
theorem Magnitude.log_significant :
    Int.log 10 (m.significant count).toRat = (m.significant count).exponent + count - 1 := by
  obtain ⟨below, above, -⟩ := significant_digits nonzero some
  have positive := toRat_significant_pos nonzero some
  generalize m.significant count = rounded at below above positive
  have unit : (0 : ℚ) < 10 ^ rounded.exponent := by positivity
  have below' : (10 : ℚ) ^ (count - 1) ≤ rounded.digits := by exact_mod_cast below
  have above' : (rounded.digits : ℚ) < 10 ^ count := by exact_mod_cast above
  have exponent : rounded.exponent + count - 1 = ((count - 1 : ℕ) : ℤ) + rounded.exponent := by
    omega
  have exponent' : rounded.exponent + count - 1 + 1 = (count : ℤ) + rounded.exponent := by omega
  apply log_eq_of_bounds positive
  · rw [exponent, zpow_add₀ (by norm_num), zpow_natCast]
    exact mul_le_mul_of_nonneg_right below' unit.le
  · rw [exponent', zpow_add₀ (by norm_num), zpow_natCast]
    exact mul_lt_mul_of_pos_right above' unit

end

end ChatMarkup.Decimal
