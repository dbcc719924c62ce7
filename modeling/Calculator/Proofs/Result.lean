import Calculator.Proofs.Number.Finite
import Calculator.Proofs.Number.Rounding
import Calculator.Result

/-! # Every finite value has a text

Only a value with a fraction is rounded to decimal places, and such a value is below 2 ^ 52. With at most
fifteen places its coefficient has far fewer digits than a decimal may have, so no finite value is refused.
-/

namespace Calculator

namespace Rounding

theorem abs_halfAway_le (x : Rat) : |(halfAway x : Rat)| ≤ |x| + 1 := by
  have close := abs_halfAway_sub_le x
  have triangle := abs_sub_abs_le_abs_sub (halfAway x : Rat) x
  linarith

end Rounding

namespace Result

variable {precision : Int} {value : Rat}

/-- Decimal places move a number by half a unit of the last one at most. -/
theorem abs_value_halfAway_sub_le (places : Nat) (x : Rat) :
    |(⟨Rounding.halfAway (x * 10 ^ places), places⟩ : Decimal).value - x| ≤ 1 / (2 * 10 ^ places) := by
  have unit : (0 : Rat) < 10 ^ places := by positivity
  have close := Rounding.abs_halfAway_sub_le (x * 10 ^ places)
  have units : (Rounding.halfAway (x * 10 ^ places) : Rat) =
      (⟨Rounding.halfAway (x * 10 ^ places), places⟩ : Decimal).value * 10 ^ places :=
    (div_mul_cancel₀ _ unit.ne').symm
  rw [units, Rounding.abs_sub_scaled unit] at close
  rw [← div_div, le_div_iff₀ unit]
  exact close

/-- The coefficient of a fractional double with at most fifteen places has at most 31 digits. -/
theorem coefficient_natAbs_lt (below : |value| < 2 ^ 52) (places : precision ≤ 15) :
    (Rounding.halfAway (value * (10 : Rat) ^ precision)).natAbs < Nat.pow 10 maxDigits := by
  have scale : (10 : Rat) ^ precision ≤ 10 ^ 15 := by
    have power : (10 : Rat) ^ precision ≤ 10 ^ (15 : Int) := zpow_le_zpow_right₀ (by norm_num) places
    simpa only [zpow_ofNat] using power
  have scaled : |value * (10 : Rat) ^ precision| ≤ 2 ^ 52 * 10 ^ 15 := by
    rw [abs_mul, abs_of_nonneg (by positivity : (0 : Rat) ≤ 10 ^ precision)]
    exact mul_le_mul below.le scale (by positivity) (by positivity)
  have rounded := Rounding.abs_halfAway_le (value * (10 : Rat) ^ precision)
  have digits : |(Rounding.halfAway (value * (10 : Rat) ^ precision) : Rat)| <
      ((10 ^ 60 : Nat) : Rat) := by
    push_cast
    linarith
  rw [← Int.cast_abs, Int.abs_eq_natAbs, Int.cast_natCast] at digits
  exact_mod_cast digits

/-- A fractional double is rounded to at most fifteen places without running out of digits. -/
theorem roundTo_eq {places : Nat} (below : |value| < 2 ^ 52) (few : places ≤ 15) :
    roundTo places value = .ok ⟨Rounding.halfAway (value * 10 ^ places), places⟩ := by
  have digits := coefficient_natAbs_lt below (by exact_mod_cast few : (places : Int) ≤ 15)
  have inRange : ¬ (2 * (maxExponent + maxDigits) < (places : Int) ∨
      (places : Int) < -(2 * (maxExponent + maxDigits))) := by
    simp only [maxExponent, maxDigits]
    omega
  have unit : ¬ (places : Int) < -maxExponent := by
    simp only [maxExponent]
    omega
  have whole : (-(places : Int)).toNat = 0 := by omega
  rw [zpow_natCast] at digits
  rw [roundTo, if_neg inRange, if_neg unit]
  simp only [zpow_natCast, if_neg (Nat.not_le.mpr digits), whole, Int.toNat_natCast]
  change Except.ok (⟨_ * 1, places⟩ : Decimal) = _
  rw [mul_one]

/-- Within the range of the settings, values with a fraction are never too long to round. -/
theorem roundTo_of_lt (below : |value| < 2 ^ 52) (places : 1 ≤ precision ∧ precision ≤ 15) :
    ∃ decimal, roundTo precision value = .ok decimal := by
  obtain ⟨count, rfl⟩ := Int.eq_ofNat_of_zero_le (by omega : 0 ≤ precision)
  exact ⟨_, roundTo_eq below (by exact_mod_cast places.2)⟩

/-- Formatting never fails on a finite double. -/
theorem text_of_isFinite {x : Float} (finite : x.isFinite = true)
    (places : 1 ≤ precision ∧ precision ≤ 15) (tolerance : Float) :
    ∃ shown, text x precision tolerance = .ok shown := by
  obtain ⟨value, stands, fractional⟩ := Binary64.meaning_of_isFinite finite
  rw [text, stands]
  simp only [decimal]
  by_cases integer : value.den = 1
  · rw [if_pos integer]
    exact ⟨_, rfl⟩
  · rw [if_neg integer]
    split
    · exact ⟨_, rfl⟩
    · obtain ⟨rounded, success⟩ := roundTo_of_lt (fractional integer) places
      rw [success]
      exact ⟨_, rfl⟩

end Result

end Calculator
