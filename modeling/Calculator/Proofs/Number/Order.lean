import Calculator.Proofs.Number.Packing

/-! # The order of doubles

Doubles are compared by their signs, then by their exponents and last by their significands. For values in
the form in which doubles keep them this is the order of the numbers they stand for.
-/

namespace Calculator.Binary64

open Float.Model (UnpackedFloat)

section Magnitudes

variable {m n : Nat} {e f : Int}

private theorem magnitude_lt (narrow : m < 2 ^ 53) (full : 2 ^ 52 ≤ n) (less : e < f) :
    (m : Rat) * 2 ^ e < n * 2 ^ f := by
  -- The significand of the larger exponent is a full one.
  have significand : (m : Rat) < 2 ^ 53 := by exact_mod_cast narrow
  have leading : (2 : Rat) ^ 52 ≤ n := by exact_mod_cast full
  calc (m : Rat) * 2 ^ e < 2 ^ 53 * 2 ^ e := by gcongr
    _ = 2 ^ 52 * 2 ^ (e + 1) := by
        rw [zpow_add₀ two_ne_zero]
        ring
    _ ≤ n * 2 ^ f := by
        gcongr
        · norm_num
        · omega

private theorem compare_magnitudes {positive : 0 < m} {positive' : 0 < n} {sign : UnpackedFloat.Sign}
    (first : Canonical (.finite sign m e positive)) (second : Canonical (.finite sign n f positive')) :
    (compare e f).then (compare m n) = compare ((m : Rat) * 2 ^ e) (n * 2 ^ f) := by
  obtain ⟨narrow, low, -, full⟩ := first
  obtain ⟨narrow', low', -, full'⟩ := second
  rcases lt_trichotomy e f with less | rfl | more
  · rw [compare_lt_iff_lt.mpr less,
      compare_lt_iff_lt.mpr (magnitude_lt narrow (full'.resolve_right (by omega)) less)]
    rfl
  · rw [compare_eq_iff_eq.mpr rfl]
    change compare m n = _
    have positive : (0 : Rat) < 2 ^ e := by positivity
    rcases lt_trichotomy m n with less | rfl | more
    · have cast : (m : Rat) < n := by exact_mod_cast less
      rw [compare_lt_iff_lt.mpr less, compare_lt_iff_lt.mpr (mul_lt_mul_of_pos_right cast positive)]
    · rw [compare_eq_iff_eq.mpr rfl, compare_eq_iff_eq.mpr rfl]
    · have cast : (n : Rat) < m := by exact_mod_cast more
      rw [compare_gt_iff_gt.mpr more, compare_gt_iff_gt.mpr (mul_lt_mul_of_pos_right cast positive)]
  · rw [compare_gt_iff_gt.mpr more,
      compare_gt_iff_gt.mpr (magnitude_lt narrow' (full.resolve_right (by omega)) more)]
    rfl

private theorem swap_compare (a b : Rat) : (compare a b).swap = compare (-a) (-b) := by
  rcases lt_trichotomy a b with less | rfl | more
  · rw [compare_lt_iff_lt.mpr less, compare_gt_iff_gt.mpr (neg_lt_neg less), Ordering.swap]
  · rw [compare_eq_iff_eq.mpr rfl, compare_eq_iff_eq.mpr rfl, Ordering.swap]
  · rw [compare_gt_iff_gt.mpr more, compare_lt_iff_lt.mpr (neg_lt_neg more), Ordering.swap]

end Magnitudes

/-- Canonical values are compared like the numbers that they are. -/
theorem compare_eq_amount : ∀ {a b : UnpackedFloat}, Canonical a → Canonical b →
    a.compare b = some (compare (amount a) (amount b))
  | .zero _, .zero _, _, _ => rfl
  | .zero _, .finite .positive n f positive', _, _ => by
    have above : (0 : Rat) < n * 2 ^ f := by positivity
    rw [amount_positive, amount_zero, compare_lt_iff_lt.mpr above]
    rfl
  | .zero _, .finite .negative n f positive', _, _ => by
    have above : (0 : Rat) < n * 2 ^ f := by positivity
    rw [amount_negative, amount_zero, compare_gt_iff_gt.mpr (neg_lt_zero.mpr above)]
    rfl
  | .finite .positive m e positive, .zero _, _, _ => by
    have above : (0 : Rat) < m * 2 ^ e := by positivity
    rw [amount_positive, amount_zero, compare_gt_iff_gt.mpr above]
    rfl
  | .finite .negative m e positive, .zero _, _, _ => by
    have above : (0 : Rat) < m * 2 ^ e := by positivity
    rw [amount_negative, amount_zero, compare_lt_iff_lt.mpr (neg_lt_zero.mpr above)]
    rfl
  | .finite .positive m e positive, .finite .negative n f positive', _, _ => by
    have above : (0 : Rat) < m * 2 ^ e := by positivity
    have below : (0 : Rat) < n * 2 ^ f := by positivity
    rw [amount_positive, amount_negative, compare_gt_iff_gt.mpr ((neg_lt_zero.mpr below).trans above)]
    rfl
  | .finite .negative m e positive, .finite .positive n f positive', _, _ => by
    have below : (0 : Rat) < m * 2 ^ e := by positivity
    have above : (0 : Rat) < n * 2 ^ f := by positivity
    rw [amount_positive, amount_negative, compare_lt_iff_lt.mpr ((neg_lt_zero.mpr below).trans above)]
    rfl
  | .finite .positive m e positive, .finite .positive n f positive', first, second => by
    rw [amount_positive, amount_positive, ← compare_magnitudes first second]
    rfl
  | .finite .negative m e positive, .finite .negative n f positive', first, second => by
    rw [amount_negative, amount_negative, ← swap_compare, ← compare_magnitudes first second]
    rfl

section Order

variable {x y : Float} {a b : Rat} (first : meaning x = .number a) (second : meaning y = .number b)
include first second

/-- Finite doubles are compared like the numbers that they stand for. -/
theorem compare_unpack : x.toModel.unpack.compare y.toModel.unpack = some (compare a b) := by
  obtain ⟨canonical, rfl⟩ := canonical_of_meaning first
  obtain ⟨canonicalSecond, rfl⟩ := canonical_of_meaning second
  exact compare_eq_amount canonical canonicalSecond

/-- Finite doubles are ordered like the numbers that they stand for. -/
theorem le_iff : x ≤ y ↔ a ≤ b := by
  change decide (x.toModel.unpack.le y.toModel.unpack = true) = true ↔ a ≤ b
  rw [decide_eq_true_iff, UnpackedFloat.le, compare_unpack first second]
  exact Ordering.isLE_iff_ne_gt.trans compare_le_iff_le

theorem lt_iff : x < y ↔ a < b := by
  change decide (x.toModel.unpack.lt y.toModel.unpack = true) = true ↔ a < b
  rw [decide_eq_true_iff, UnpackedFloat.lt, compare_unpack first second, beq_iff_eq, Option.some_inj]
  exact compare_lt_iff_lt

end Order

section Bounds

variable {x y : Float} {a : Rat}

/-- A finite double is below the positive infinity only. -/
theorem lt_infinity_iff {negative : Bool} (first : meaning x = .number a)
    (second : meaning y = .infinity negative) : x < y ↔ negative = false := by
  obtain ⟨canonical, -⟩ := canonical_of_meaning first
  change decide (x.toModel.unpack.lt y.toModel.unpack = true) = true ↔ _
  generalize x.toModel.unpack = finite at canonical
  unfold meaning at second
  cases unpacked : y.toModel.unpack with
  | infinity sign =>
    rw [unpacked] at second
    obtain rfl := Meaning.infinity.inj second
    cases finite with
    | infinity | notANumber => cases canonical
    | zero other | finite other =>
      cases sign with
      | positive => cases other <;> exact iff_of_true rfl rfl
      | negative => cases other <;> exact iff_of_false Bool.false_ne_true (by decide)
  | finite | zero | notANumber => simp [unpacked] at second

/-- Nothing is below what is no number. -/
theorem not_lt_of_notANumber (second : meaning y = .notANumber) : ¬ x < y := by
  unfold meaning at second
  cases unpacked : y.toModel.unpack with
  | notANumber =>
    change ¬ decide (x.toModel.unpack.lt y.toModel.unpack = true) = true
    rw [unpacked]
    cases x.toModel.unpack <;> exact Bool.false_ne_true
  | finite | zero | infinity => simp [unpacked] at second

end Bounds

end Calculator.Binary64
