import Calculator.Proofs.Number.Packing
import Calculator.Proofs.Number.Rounding

/-! # The nearest double

The doubles around a number are the multiples of a power of two that depends on its binade alone.
`Binary64.rounded` is the multiple that `Binary64.nearest` stores; it is at most half that power away, and
a number that is such a multiple itself stays what it is.
-/

namespace Calculator.Binary64

variable {x : Rat}

theorem ratAbs_eq (x : Rat) : x.abs = |x| := by
  unfold Rat.abs
  split_ifs with nonneg
  · exact (abs_of_nonneg nonneg).symm
  · exact (abs_of_neg (not_le.mp nonneg)).symm

section Binade

private theorem guess_spec (nonzero : x ≠ 0) :
    let guess : Int := (x.num.natAbs.log2 : Int) - x.den.log2
    (2 : Rat) ^ (guess - 1) ≤ |x| ∧ |x| < (2 : Rat) ^ (guess + 1) := by
  -- The bits of numerator and denominator give the binade of a fraction up to one.
  intro guess
  have fraction : |x| = (x.num.natAbs : Rat) / x.den := by
    conv_lhs => rw [← Rat.num_div_den x]
    rw [abs_div, Nat.abs_cast, ← Int.cast_abs, Int.abs_eq_natAbs, Int.cast_natCast]
  have numerator : x.num.natAbs ≠ 0 := Int.natAbs_ne_zero.mpr (Rat.num_ne_zero.mpr nonzero)
  have positive : (0 : Rat) < x.den := by exact_mod_cast x.den_pos
  have numLow : (2 : Rat) ^ (x.num.natAbs.log2 : Int) ≤ x.num.natAbs := by
    rw [zpow_natCast]
    exact_mod_cast Nat.log2_self_le numerator
  have numHigh : (x.num.natAbs : Rat) < (2 : Rat) ^ ((x.num.natAbs.log2 : Int) + 1) := by
    have below : x.num.natAbs < 2 ^ (x.num.natAbs.log2 + 1) := Nat.lt_log2_self
    exact_mod_cast below
  have denLow : (2 : Rat) ^ (x.den.log2 : Int) ≤ x.den := by
    rw [zpow_natCast]
    exact_mod_cast Nat.log2_self_le x.den_nz
  have denHigh : (x.den : Rat) < (2 : Rat) ^ ((x.den.log2 : Int) + 1) := by
    have below : x.den < 2 ^ (x.den.log2 + 1) := Nat.lt_log2_self
    exact_mod_cast below
  rw [fraction, le_div_iff₀ positive, div_lt_iff₀ positive]
  constructor
  · calc (2 : Rat) ^ (guess - 1) * x.den
        ≤ (2 : Rat) ^ (guess - 1) * (2 : Rat) ^ ((x.den.log2 : Int) + 1) := by gcongr
      _ = (2 : Rat) ^ (x.num.natAbs.log2 : Int) := by
          rw [← zpow_add₀ two_ne_zero]
          congr 1
          omega
      _ ≤ x.num.natAbs := numLow
  · calc (x.num.natAbs : Rat) < (2 : Rat) ^ ((x.num.natAbs.log2 : Int) + 1) := numHigh
      _ = (2 : Rat) ^ (guess + 1) * (2 : Rat) ^ (x.den.log2 : Int) := by
          rw [← zpow_add₀ two_ne_zero]
          congr 1
          omega
      _ ≤ (2 : Rat) ^ (guess + 1) * x.den := by gcongr

/-- A number that is not zero lies in its binade. -/
theorem binade_spec (nonzero : x ≠ 0) :
    (2 : Rat) ^ binade x ≤ |x| ∧ |x| < (2 : Rat) ^ (binade x + 1) := by
  obtain ⟨above, below⟩ := guess_spec nonzero
  unfold binade
  simp only [ratAbs_eq]
  split_ifs with less
  · rw [sub_add_cancel]
    exact ⟨above, less⟩
  · exact ⟨not_lt.mp less, below⟩

/-- The powers of two up to the binade are those that a number is not below. -/
theorem le_binade_iff (nonzero : x ≠ 0) {k : Int} : k ≤ binade x ↔ (2 : Rat) ^ k ≤ |x| := by
  obtain ⟨least, most⟩ := binade_spec nonzero
  have one : (1 : Rat) < 2 := by norm_num
  constructor
  · intro low
    exact (zpow_le_zpow_right₀ one.le low).trans least
  · intro above
    exact Int.lt_add_one_iff.mp ((zpow_lt_zpow_iff_right₀ one).mp (above.trans_lt most))

/-- The binade is the only power of two that a number lies above. -/
theorem binade_eq {k : Int} (above : (2 : Rat) ^ k ≤ |x|) (below : |x| < (2 : Rat) ^ (k + 1)) :
    binade x = k := by
  have nonzero : x ≠ 0 := by
    rintro rfl
    rw [abs_zero] at above
    exact absurd above (not_le.mpr (by positivity))
  have low := (le_binade_iff nonzero).mpr above
  have high := mt (le_binade_iff nonzero).mp (not_le.mpr below)
  omega

theorem binade_neg (x : Rat) : binade (-x) = binade x := by
  simp only [binade, ratAbs_eq, abs_neg, Rat.neg_num, Int.natAbs_neg, Rat.neg_den]

end Binade

section Rounded

/-- The number that the nearest double stands for, were there no largest one. -/
def rounded (x : Rat) : Rat := Rounding.halfEven (x / (2 : Rat) ^ lastBit x) * (2 : Rat) ^ lastBit x

theorem lastBit_neg (x : Rat) : lastBit (-x) = lastBit x := by rw [lastBit, lastBit, binade_neg]

/-- Rounding treats both signs alike. -/
theorem rounded_neg (x : Rat) : rounded (-x) = -rounded x := by
  rw [rounded, rounded, lastBit_neg, neg_div, Rounding.halfEven_neg, Int.cast_neg, neg_mul]

/-- The last bit of a double is at most that of a number above it. -/
theorem lastBit_le {exponent : Int} (nonzero : x ≠ 0) (low : -1074 ≤ exponent)
    (below : |x| < (2 : Rat) ^ (exponent + 53)) : lastBit x ≤ exponent := by
  have high := mt (le_binade_iff nonzero).mp (not_le.mpr below)
  unfold lastBit
  omega

variable (x)

private theorem spacing_pos : (0 : Rat) < (2 : Rat) ^ lastBit x := by positivity

/-- Rounding moves a number by half the spacing of doubles at most. -/
theorem abs_rounded_sub_le : |rounded x - x| ≤ (2 : Rat) ^ lastBit x / 2 := by
  have positive := spacing_pos x
  have close := Rounding.abs_halfEven_sub_le (x / (2 : Rat) ^ lastBit x)
  calc |rounded x - x|
      = |Rounding.halfEven (x / (2 : Rat) ^ lastBit x) - x / (2 : Rat) ^ lastBit x| *
          (2 : Rat) ^ lastBit x := by
        rw [← Rounding.abs_sub_scaled positive, div_mul_cancel₀ _ positive.ne', rounded]
    _ ≤ 1 / 2 * (2 : Rat) ^ lastBit x := by gcongr
    _ = (2 : Rat) ^ lastBit x / 2 := by ring

variable {x}

/-- A multiple of the spacing that is nearer than half of it is what a number is rounded to. -/
theorem rounded_eq {n : Int} (near : |x - n * (2 : Rat) ^ lastBit x| < (2 : Rat) ^ lastBit x / 2) :
    rounded x = n * (2 : Rat) ^ lastBit x := by
  have positive := spacing_pos x
  have units : |x - n * (2 : Rat) ^ lastBit x| =
      |x / (2 : Rat) ^ lastBit x - n| * (2 : Rat) ^ lastBit x := by
    rw [← Rounding.abs_sub_scaled positive, div_mul_cancel₀ _ positive.ne']
  have closer : |x / (2 : Rat) ^ lastBit x - n| * (2 : Rat) ^ lastBit x <
      1 / 2 * (2 : Rat) ^ lastBit x := by linarith
  rw [rounded, Rounding.halfEven_eq (lt_of_mul_lt_mul_right closer positive.le)]

/-- A number that a double can stand for is not rounded. -/
theorem rounded_eq_self {n exponent : Int} (low : -1074 ≤ exponent)
    (below : |x| < (2 : Rat) ^ (exponent + 53)) (same : x = n * (2 : Rat) ^ exponent) :
    rounded x = x := by
  by_cases zero : x = 0
  · simp [zero, rounded]
  · have coarse := lastBit_le zero low below
    have multiple : x = (n * 2 ^ (exponent - lastBit x).toNat : Int) * (2 : Rat) ^ lastBit x := by
      push_cast
      rw [mul_assoc, ← zpow_natCast, ← zpow_add₀ two_ne_zero, Int.toNat_of_nonneg (by omega),
        sub_add_cancel]
      exact same
    refine (rounded_eq ?_).trans multiple.symm
    rw [← multiple, sub_self, abs_zero]
    exact half_pos (spacing_pos x)

end Rounded

section Nearest

/-- The significand that the nearest double has, before a carry. -/
private def significand (x : Rat) : Nat := (Rounding.halfEven (|x| / (2 : Rat) ^ lastBit x)).toNat

private theorem cast_significand (x : Rat) :
    ((significand x : Int) : Rat) = Rounding.halfEven (|x| / (2 : Rat) ^ lastBit x) := by
  have close := (abs_le.mp (Rounding.abs_halfEven_sub_le (|x| / (2 : Rat) ^ lastBit x))).1
  have nonneg : 0 ≤ |x| / (2 : Rat) ^ lastBit x := by positivity
  have above : (-1 : Rat) < Rounding.halfEven (|x| / (2 : Rat) ^ lastBit x) := by linarith
  have integer : (-1 : Int) < Rounding.halfEven (|x| / (2 : Rat) ^ lastBit x) := by
    exact_mod_cast above
  rw [significand, Int.toNat_of_nonneg (by omega)]

private theorem signed_significand (x : Rat) :
    (if x < 0 then -1 else 1) * ((significand x : Rat) * (2 : Rat) ^ lastBit x) = rounded x := by
  rw [← Int.cast_natCast, cast_significand, rounded]
  split_ifs with negative
  · have opposite : x / (2 : Rat) ^ lastBit x = -(|x| / (2 : Rat) ^ lastBit x) := by
      rw [abs_of_neg negative, neg_div, neg_neg]
    rw [opposite, Rounding.halfEven_neg]
    push_cast
    ring
  · rw [abs_of_nonneg (not_lt.mp negative), one_mul]

private theorem abs_rounded (x : Rat) :
    |rounded x| = (significand x : Rat) * (2 : Rat) ^ lastBit x := by
  have nonneg : 0 ≤ (significand x : Rat) * (2 : Rat) ^ lastBit x := by positivity
  rw [← signed_significand]
  split_ifs
  · rw [neg_one_mul, abs_neg, abs_of_nonneg nonneg]
  · rw [one_mul, abs_of_nonneg nonneg]

private theorem significand_zero : significand 0 = 0 := by simp [significand]

private theorem significand_le (nonzero : x ≠ 0) : significand x ≤ 2 ^ 53 := by
  have below : |x| / (2 : Rat) ^ lastBit x < 2 ^ 53 := by
    rw [div_lt_iff₀ (by positivity)]
    calc |x| < (2 : Rat) ^ (binade x + 1) := (binade_spec nonzero).2
      _ ≤ (2 : Rat) ^ (53 + lastBit x) := by
          apply zpow_le_zpow_right₀ (by norm_num)
          unfold lastBit
          omega
      _ = 2 ^ 53 * (2 : Rat) ^ lastBit x := by
          rw [zpow_add₀ two_ne_zero]
          norm_num
  have close := (abs_le.mp (Rounding.abs_halfEven_sub_le (|x| / (2 : Rat) ^ lastBit x))).2
  have cast := cast_significand x
  have bound : ((significand x : Int) : Rat) < (2 ^ 53 + 1 : Int) := by
    push_cast at cast ⊢
    linarith
  have integer : (significand x : Int) < 2 ^ 53 + 1 := by exact_mod_cast bound
  omega

private theorem le_significand (nonzero : x ≠ 0) (normal : lastBit x ≠ -1074) :
    2 ^ 52 ≤ significand x := by
  have above : 2 ^ 52 ≤ |x| / (2 : Rat) ^ lastBit x := by
    rw [le_div_iff₀ (by positivity)]
    calc 2 ^ 52 * (2 : Rat) ^ lastBit x = (2 : Rat) ^ (52 + lastBit x) := by
          rw [zpow_add₀ two_ne_zero]
          norm_num
      _ ≤ (2 : Rat) ^ binade x := by
          apply zpow_le_zpow_right₀ (by norm_num)
          unfold lastBit at normal ⊢
          omega
      _ ≤ |x| := (binade_spec nonzero).1
  have close := (abs_le.mp (Rounding.abs_halfEven_sub_le (|x| / (2 : Rat) ^ lastBit x))).1
  have cast := cast_significand x
  have bound : ((2 ^ 52 - 1 : Int) : Rat) < (significand x : Int) := by
    push_cast at cast ⊢
    linarith
  have integer : (2 ^ 52 - 1 : Int) < significand x := by exact_mod_cast bound
  omega

private theorem lastBit_le_of_lt (small : |x| < (2 : Rat) ^ (1024 : Int)) : lastBit x ≤ 971 := by
  by_cases zero : x = 0
  · subst zero
    decide
  · exact lastBit_le zero (by norm_num) small

/-- The nearest double stands for the rounded number, unless this is beyond the largest double. -/
theorem meaning_nearest (small : |x| < (2 : Rat) ^ (1024 : Int))
    (fits : |rounded x| < (2 : Rat) ^ (1024 : Int)) : meaning (nearest x) = .number (rounded x) := by
  have low : -1074 ≤ lastBit x := by
    unfold lastBit
    omega
  have high := lastBit_le_of_lt small
  have signed := signed_significand x
  have parts : nearest x = if significand x = 2 ^ 53 then ofParts (x < 0) (2 ^ 52) (lastBit x + 1)
      else ofParts (x < 0) (significand x) (lastBit x) := by
    simp only [nearest, significand, ratAbs_eq]
    rfl
  rw [parts]
  split_ifs with carry
  · have value : (2 ^ 52 : Nat) * (2 : Rat) ^ (lastBit x + 1) = significand x * (2 : Rat) ^ lastBit x := by
      rw [carry, zpow_add₀ two_ne_zero]
      push_cast
      ring
    have exponent : lastBit x + 1 ≤ 971 := by
      rw [abs_rounded, ← value, Nat.cast_pow, Nat.cast_ofNat, ← zpow_natCast,
        ← zpow_add₀ two_ne_zero] at fits
      have below := (zpow_lt_zpow_iff_right₀ (by norm_num : (1 : Rat) < 2)).mp fits
      omega
    rw [meaning_ofParts _ (by norm_num) (by omega) exponent (.inl (Nat.le_refl _)), value, ← signed]
    simp
  · by_cases zero : x = 0
    · rw [zero, significand_zero] at signed ⊢
      rw [meaning_ofParts _ (by norm_num) (by decide) (by decide) (.inr (.inr rfl)), ← signed]
      simp
    · have narrow : significand x < 2 ^ 53 := lt_of_le_of_ne (significand_le zero) carry
      have full : 2 ^ 52 ≤ significand x ∨ lastBit x = -1074 ∨ significand x = 0 :=
        (em (lastBit x = -1074)).symm.imp (le_significand zero) .inl
      rw [meaning_ofParts _ narrow low high full, ← signed]
      simp

/-- Half way from the largest double to the power of two that comes next. -/
def overflowThreshold : Rat := (2 : Rat) ^ (1024 : Int) - (2 : Rat) ^ (970 : Int)

/-- Below the threshold numbers are rounded to finite doubles. -/
theorem isFinite_nearest (small : |x| < overflowThreshold) : (nearest x).isFinite = true := by
  rw [overflowThreshold] at small
  have positive : (0 : Rat) < (2 : Rat) ^ (970 : Int) := by positivity
  have inRange : |x| < (2 : Rat) ^ (1024 : Int) := small.trans (sub_lt_self _ positive)
  have spacing : (2 : Rat) ^ lastBit x / 2 ≤ (2 : Rat) ^ (970 : Int) := by
    have coarse : (2 : Rat) ^ lastBit x ≤ (2 : Rat) ^ (970 + 1 : Int) :=
      zpow_le_zpow_right₀ (by norm_num) (lastBit_le_of_lt inRange)
    rw [zpow_add_one₀ two_ne_zero] at coarse
    linarith
  have fits : |rounded x| < (2 : Rat) ^ (1024 : Int) :=
    calc |rounded x| ≤ |rounded x - x| + |x| := by simpa using abs_add_le (rounded x - x) x
      _ ≤ (2 : Rat) ^ (970 : Int) + |x| := by
          have close := abs_rounded_sub_le x
          linarith
      _ < (2 : Rat) ^ (1024 : Int) := lt_sub_iff_add_lt'.mp small
  exact isFinite_of_meaning (meaning_nearest inRange fits)

/-- At the threshold they are not. -/
example : (nearest overflowThreshold).isFinite = false := by decide +kernel

end Nearest

end Calculator.Binary64
