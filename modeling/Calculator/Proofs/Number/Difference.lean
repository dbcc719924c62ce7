import Calculator.Proofs.Number.Nearest

/-! # Exact differences of doubles

Doubles are subtracted by aligning both significands, subtracting them as integers and rounding what
comes out. Where the difference is the value of a double, rounding only shifts zeros in or out, so the
difference is computed exactly.
-/

namespace Calculator.Binary64

open Float.Model (Format UnpackedFloat totalExponent)
open Float.Model.UnpackedFloat (Sign ExtendedMantissa decreaseExponent)

section Round

variable {sign : Sign} {m n : Nat} {e t : Int}

/-- A canonical value has the exponent that doubles around it have. -/
theorem lastBit_of_canonical {positive : 0 < n} (canonical : Canonical (.finite sign n t positive)) :
    lastBit (n * (2 : Rat) ^ t) = t := by
  obtain ⟨narrow, low, -, full⟩ := canonical
  have spacing : (0 : Rat) < 2 ^ t := by positivity
  have nonzero : (n : Rat) * 2 ^ t ≠ 0 := by positivity
  have below : |(n : Rat) * 2 ^ t| < (2 : Rat) ^ (t + 53) := by
    have cast : (n : Rat) < 2 ^ (53 : Int) := by exact_mod_cast narrow
    rw [abs_of_pos (by positivity), add_comm, zpow_add₀ two_ne_zero]
    gcongr
  have high := lastBit_le nonzero low below
  rcases full with full | rfl
  · have above : (2 : Rat) ^ (t + 52) ≤ |(n : Rat) * 2 ^ t| := by
      have cast : (2 : Rat) ^ (52 : Int) ≤ n := by exact_mod_cast full
      rw [abs_of_pos (by positivity), add_comm, zpow_add₀ two_ne_zero]
      gcongr
    have binade := (le_binade_iff nonzero).mpr above
    unfold lastBit at high ⊢
    omega
  · exact le_antisymm high (le_max_right _ _)

private theorem targetExponent_eq (positive : 0 < m) :
    Format.binary64.targetExponent (totalExponent m e) = lastBit (m * (2 : Rat) ^ e) := by
  have leading : binade (m * (2 : Rat) ^ e) = m.log2 + e := by
    have least : (2 : Rat) ^ (m.log2 : Int) ≤ m := by
      rw [zpow_natCast]
      exact_mod_cast Nat.log2_self_le positive.ne'
    have most : (m : Rat) < 2 ^ ((m.log2 : Int) + 1) := by
      have below : m < 2 ^ (m.log2 + 1) := Nat.lt_log2_self
      exact_mod_cast below
    have spacing : (0 : Rat) < 2 ^ e := by positivity
    apply binade_eq <;> rw [abs_of_pos (by positivity)]
    · rw [zpow_add₀ two_ne_zero]
      gcongr
    · rw [add_right_comm, zpow_add₀ two_ne_zero]
      gcongr
  simp [Format.targetExponent, Format.mantissaBits, Format.minExponent, totalExponent, lastBit, leading]
  omega

private theorem shiftRight_multiple (n steps : Nat) :
    (⟨n * 2 ^ steps, false, false⟩ : ExtendedMantissa) >>> steps = ⟨n, false, false⟩ := by
  change steps.repeat ExtendedMantissa.shiftRightOne _ = _
  induction steps generalizing n with
  | zero => simp [Nat.repeat]
  | succ steps ih =>
    rw [Nat.repeat, pow_succ', ← mul_assoc, ih (n * 2)]
    simp [ExtendedMantissa.shiftRightOne]

section Canonical

variable {positive : 0 < n} (canonical : Canonical (.finite sign n t positive))
include canonical

private theorem shiftToTargetExponent_multiple (steps : Nat) :
    UnpackedFloat.shiftToTargetExponent Format.binary64 (n * 2 ^ steps) (t - steps) .exact =
      (⟨n, false, false⟩, t) := by
  have value : ((n * 2 ^ steps : Nat) : Rat) * 2 ^ (t - steps : Int) = n * 2 ^ t := by
    push_cast
    rw [mul_assoc, ← zpow_natCast, ← zpow_add₀ two_ne_zero, add_sub_cancel]
  have target : Format.binary64.targetExponent (totalExponent (n * 2 ^ steps) (t - steps)) = t := by
    rw [targetExponent_eq (by positivity), value, lastBit_of_canonical canonical]
  have shift : (t - (t - steps) : Int).toNat = steps := by omega
  simp only [UnpackedFloat.shiftToTargetExponent, UnpackedFloat.shiftToExponent, target, shift,
    ExtendedMantissa.ofMantissaAndAccuracy, shiftRight_multiple, sub_add_cancel]

private theorem roundWithAccuracy_multiple (steps : Nat) :
    UnpackedFloat.roundWithAccuracy Format.binary64 sign (n * 2 ^ steps) (t - steps) .exact =
      .finite sign n t positive := by
  have again := shiftToTargetExponent_multiple canonical 0
  rw [pow_zero, mul_one, Nat.cast_zero, sub_zero] at again
  -- With nothing behind it the significand stays, and it is in place when it is shifted again.
  have kept : (⟨n, false, false⟩ : ExtendedMantissa).roundedMantissa = n := rfl
  simp only [UnpackedFloat.roundWithAccuracy, shiftToTargetExponent_multiple canonical steps, kept, again,
    positive.ne', dif_neg, not_false_eq_true]

/-- A value that has a canonical form is rounded to it. -/
theorem round_eq (same : (m : Rat) * 2 ^ e = n * 2 ^ t) :
    UnpackedFloat.round Format.binary64 sign m e = .finite sign n t positive := by
  have nonzero : (n : Rat) * 2 ^ t ≠ 0 := by positivity
  have positiveM : 0 < m := by
    refine Nat.pos_of_ne_zero ?_
    rintro rfl
    rw [Nat.cast_zero, zero_mul] at same
    exact nonzero same.symm
  have target : Format.binary64.targetExponent (totalExponent m e) = t := by
    rw [targetExponent_eq positiveM, same, lastBit_of_canonical canonical]
  obtain ⟨steps, below⟩ : ∃ steps : Nat, e - (e - t).toNat = t - steps := ⟨(t - e).toNat, by omega⟩
  have aligned : m * 2 ^ (e - t).toNat = n * 2 ^ steps := by
    have value : (m : Rat) * 2 ^ (e - t).toNat * 2 ^ (e - (e - t).toNat : Int) =
        n * 2 ^ steps * 2 ^ (t - steps : Int) := by
      simp only [mul_assoc, ← zpow_natCast, ← zpow_add₀ (two_ne_zero' Rat), add_sub_cancel, same]
    rw [below] at value
    exact_mod_cast mul_right_cancel₀ (by positivity) value
  simp only [UnpackedFloat.round, target, decreaseExponent, Nat.shiftLeft_eq, aligned, below]
  exact roundWithAccuracy_multiple canonical steps

end Canonical

end Round

section Sub

variable {value first second : UnpackedFloat}

private theorem normalize_spec (canonical : Canonical value) {m e : Int}
    (same : (m : Rat) * 2 ^ e = amount value) :
    Canonical (UnpackedFloat.normalize Format.binary64 m e .positive) ∧
      amount (UnpackedFloat.normalize Format.binary64 m e .positive) = amount value := by
  have spacing : (2 : Rat) ^ e ≠ 0 := by positivity
  cases value with
  | infinity | notANumber => cases canonical
  | zero sign =>
    have none : (m : Rat) = 0 := (mul_eq_zero.mp same).resolve_right spacing
    obtain rfl : m = 0 := by exact_mod_cast none
    exact ⟨trivial, rfl⟩
  | finite sign n t positive =>
    cases sign with
    | positive =>
      rw [amount_positive] at same ⊢
      have above : 0 < m := by
        have product : (0 : Rat) < m * 2 ^ e := by
          rw [same]
          positivity
        exact_mod_cast (mul_pos_iff_of_pos_right (by positivity)).mp product
      have magnitude : (m.toNat : Rat) * 2 ^ e = n * 2 ^ t := by
        rw [← same, ← Int.cast_natCast, Int.toNat_of_nonneg above.le]
      rw [UnpackedFloat.normalize, Int.compare_eq_gt.mpr above]
      simp only [round_eq canonical magnitude]
      exact ⟨canonical, rfl⟩
    | negative =>
      rw [amount_negative] at same ⊢
      have below : m < 0 := by
        have product : (m : Rat) * 2 ^ e < 0 := by
          rw [same]
          exact neg_lt_zero.mpr (by positivity)
        exact_mod_cast neg_of_mul_neg_left product (by positivity)
      have magnitude : ((-m).toNat : Rat) * 2 ^ e = n * 2 ^ t := by
        rw [← Int.cast_natCast, Int.toNat_of_nonneg (by omega), Int.cast_neg, neg_mul, same, neg_neg]
      rw [UnpackedFloat.normalize, Int.compare_eq_lt.mpr below]
      simp only [round_eq canonical magnitude]
      exact ⟨canonical, amount_negative positive⟩

private theorem amount_aligned (sign : Sign) {n : Nat} {t e : Int} (positive : 0 < n) (below : e ≤ t) :
    ((sign.apply (n <<< (t - e).toNat : Nat) : Int) : Rat) * 2 ^ e =
      amount (.finite sign n t positive) := by
  have magnitude : ((n <<< (t - e).toNat : Nat) : Rat) * 2 ^ e = n * 2 ^ t := by
    have steps : ((t - e).toNat : Int) + e = t := by omega
    rw [Nat.shiftLeft_eq, Nat.cast_mul, Nat.cast_pow, Nat.cast_ofNat, mul_assoc, ← zpow_natCast,
      ← zpow_add₀ two_ne_zero, steps]
  cases sign with
  | positive => rw [amount_positive, ← magnitude, Sign.apply, Int.cast_natCast]
  | negative => rw [amount_negative, ← magnitude, Sign.apply, Int.cast_neg, Int.cast_natCast, neg_mul]

/-- A difference that has a canonical form is computed exactly. -/
theorem sub_spec (canonical : Canonical first) (canonicalSecond : Canonical second)
    (exact : Canonical value) (difference : amount value = amount first - amount second) :
    Canonical (UnpackedFloat.sub Format.binary64 first second) ∧
      amount (UnpackedFloat.sub Format.binary64 first second) = amount first - amount second := by
  cases first with
  | infinity | notANumber => cases canonical
  | zero sign =>
    cases second with
    | infinity | notANumber => cases canonicalSecond
    | zero other =>
      cases sign <;> cases other <;> exact ⟨trivial, (sub_self 0).symm⟩
    | finite other n t positive =>
      refine ⟨canonicalSecond, ?_⟩
      cases other <;> simp [UnpackedFloat.sub, amount, Sign.apply]
  | finite sign m e positive =>
    cases second with
    | infinity | notANumber => cases canonicalSecond
    | zero other => exact ⟨canonical, by simp [UnpackedFloat.sub, amount_zero]⟩
    | finite other n t positive' =>
      rw [← difference]
      refine normalize_spec exact ?_
      rw [Int.cast_sub, sub_mul, amount_aligned sign positive (min_le_left e t),
        amount_aligned other positive' (min_le_right e t), difference]

end Sub

section Doubles

variable {x y z : Float} {a b : Rat}

/-- A difference that a double stands for is computed exactly. -/
theorem meaning_sub (first : meaning x = .number a) (second : meaning y = .number b)
    (exact : meaning z = .number (a - b)) : meaning (x - y) = .number (a - b) := by
  obtain ⟨canonical, rfl⟩ := canonical_of_meaning first
  obtain ⟨canonicalSecond, rfl⟩ := canonical_of_meaning second
  obtain ⟨canonicalExact, difference⟩ := canonical_of_meaning exact
  obtain ⟨canonicalResult, result⟩ := sub_spec canonical canonicalSecond canonicalExact difference
  change meaning (.ofModel (.pack
    (UnpackedFloat.sub Format.binary64 x.toModel.unpack y.toModel.unpack))) = _
  rw [meaning_pack canonicalResult, result]

/-- The magnitude of a double stands for the magnitude of its number. -/
theorem meaning_abs (stands : meaning x = .number a) : meaning x.abs = .number |a| := by
  obtain ⟨canonical, rfl⟩ := canonical_of_meaning stands
  change meaning (.ofModel (.pack x.toModel.unpack.abs)) = _
  generalize x.toModel.unpack = value at canonical
  have canonicalAbs : Canonical value.abs := by
    cases value with
    | infinity | notANumber => cases canonical
    | zero | finite => exact canonical
  have amountAbs : amount value.abs = |amount value| := by
    cases value with
    | infinity | notANumber => cases canonical
    | zero => exact abs_zero.symm
    | finite sign n t positive =>
      have nonneg : (0 : Rat) ≤ n * 2 ^ t := by positivity
      cases sign with
      | positive => exact (abs_of_nonneg nonneg).symm
      | negative =>
        rw [amount_negative, abs_neg]
        exact (abs_of_nonneg nonneg).symm
  rw [meaning_pack canonicalAbs, amountAbs]

end Doubles

end Calculator.Binary64
