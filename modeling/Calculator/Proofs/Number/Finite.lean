import Calculator.Arithmetic
import Calculator.Proofs.Number.Nearest

/-! # Finite doubles

A double is finite unless its exponent field is exhausted, and packing exhausts the field only for an
exponent above 971. A rounded quotient by one hundred keeps well below this bound, and the factorial of
the largest integer that has one is below the threshold of overflow.
-/

namespace Calculator.Binary64

open Float.Model

/-- Whether packing keeps a value finite: the exponent of its last bit must fit. -/
def Storable : UnpackedFloat → Prop
  | .zero _ => True
  | .finite _ _ exponent _ => exponent ≤ 971
  | _ => False

/-- Packing keeps a value finite if it is storable. -/
theorem isFinite_pack {value : UnpackedFloat} (storable : Storable value) :
    (Float.ofModel (.pack value)).isFinite = true := by
  change (UnpackedFloat.unpack Format.binary64 (UnpackedFloat.pack Format.binary64 value)).isFinite =
    true
  rw [isFinite_unpack]
  cases value with
  | infinity sign => contradiction
  | notANumber => contradiction
  | zero sign => cases sign <;> decide
  | finite sign significand exponent positive =>
    have small : exponent ≤ 971 := storable
    have bias : Format.binary64.exponentBias = 1023 := by decide
    have fits : ¬ 2 ^ 11 ≤ (exponent + 1023 + 52).toNat + 1 := by omega
    simp only [UnpackedFloat.pack, bias, Nat.cast_ofNat, if_neg fits]
    split_ifs
    · rw [UnpackedFloat.unpackExponent_packComponents]
      intro exhausted
      have field := congrArg BitVec.toNat exhausted
      rw [BitVec.toNat_ofNat, Nat.mod_eq_of_lt (by omega)] at field
      change (exponent + 1023 + 52).toNat = 2047 at field
      omega
    · rw [UnpackedFloat.unpackExponent_packComponents]
      decide

/-- A finite double that is not zero has a significand of at most 53 bits and a fitting exponent. -/
theorem unpack_of_isFinite {x : Float} (finite : x.isFinite = true) :
    (∃ sign, x.toModel.unpack = .zero sign) ∨
      ∃ sign significand exponent positive,
        x.toModel.unpack = .finite sign significand exponent positive ∧
          significand < 2 ^ 53 ∧ exponent ≤ 971 := by
  have canonical := canonical_unpack finite
  generalize x.toModel.unpack = unpacked at canonical
  cases unpacked with
  | zero sign => exact .inl ⟨sign, rfl⟩
  | finite sign significand exponent positive =>
    obtain ⟨narrow, -, small, -⟩ := canonical
    exact .inr ⟨sign, significand, exponent, positive, rfl, narrow, small⟩
  | infinity => cases canonical
  | notANumber => cases canonical

theorem isFinite_of_not_nan_inf {x : Float} (number : x.isNaN = false) (bounded : x.isInf = false) :
    x.isFinite = true := by
  change x.toModel.unpack.isNaN = false at number
  change x.toModel.unpack.isInf = false at bounded
  change x.toModel.unpack.isFinite = true
  cases kind : x.toModel.unpack with
  | infinity sign => simp [kind, UnpackedFloat.isInf] at bounded
  | notANumber => simp [kind, UnpackedFloat.isNaN] at number
  | zero sign => rfl
  | finite sign significand exponent positive => rfl

/-! ### A quotient by one hundred -/

private theorem shiftRight_mantissa_le (extended : UnpackedFloat.ExtendedMantissa) (steps : Nat) :
    (extended >>> steps).mantissa ≤ extended.mantissa := by
  change (steps.repeat UnpackedFloat.ExtendedMantissa.shiftRightOne extended).mantissa ≤ _
  induction steps with
  | zero => exact Nat.le_refl _
  | succ steps ih =>
    rw [Nat.repeat]
    exact Nat.le_trans (Nat.div_le_self ..) ih

private theorem roundedMantissa_le (extended : UnpackedFloat.ExtendedMantissa) :
    extended.roundedMantissa ≤ extended.mantissa + 1 := by
  rcases extended with ⟨mantissa, round, sticky⟩
  cases round <;> cases sticky <;>
    simp only [UnpackedFloat.ExtendedMantissa.roundedMantissa,
      UnpackedFloat.ExtendedMantissa.accuracy, UnpackedFloat.Accuracy.roundToNearestEven] <;> omega

private theorem log2_le {n bits : Nat} (small : n < 2 ^ (bits + 1)) : n.log2 ≤ bits := by
  by_cases zero : n = 0
  · simp [zero]
  · have := (Nat.log2_lt zero).mpr small
    omega

private theorem shiftToTargetExponent_mantissa_le (mantissa : Nat) (exponent : Int)
    (accuracy : UnpackedFloat.Accuracy) :
    (UnpackedFloat.shiftToTargetExponent Format.binary64 mantissa exponent accuracy).1.mantissa ≤
      mantissa := by
  refine Nat.le_trans (shiftRight_mantissa_le ..) ?_
  match accuracy with
  | .exact | .inexact .lt | .inexact .eq | .inexact .gt => exact Nat.le_refl _

private theorem shiftToTargetExponent_exponent_le (mantissa : Nat) (exponent : Int)
    (accuracy : UnpackedFloat.Accuracy) (bits : Nat) (narrow : mantissa < 2 ^ (bits + 53))
    (bound : Int) (subnormal : -1074 ≤ bound) (small : exponent + bits ≤ bound) :
    (UnpackedFloat.shiftToTargetExponent Format.binary64 mantissa exponent accuracy).2 ≤ bound := by
  have logarithm : mantissa.log2 ≤ bits + 52 := log2_le narrow
  have target (total : Int) : Format.binary64.targetExponent total = max (total - 53) (-1074) := by
    simp [Format.targetExponent, Format.mantissaBits, Format.minExponent]
  simp only [UnpackedFloat.shiftToTargetExponent, UnpackedFloat.shiftToExponent, target,
    totalExponent]
  omega

/-- Rounding shifts, may carry once, and shifts again; 54 bits to begin with bound all of that. -/
theorem storable_roundWithAccuracy (sign : UnpackedFloat.Sign) {mantissa : Nat} {exponent : Int}
    (accuracy : UnpackedFloat.Accuracy) (narrow : mantissa < 2 ^ 54) (small : exponent ≤ 968) :
    Storable (UnpackedFloat.roundWithAccuracy Format.binary64 sign mantissa exponent accuracy) := by
  have kept := shiftToTargetExponent_mantissa_le mantissa exponent accuracy
  have first := shiftToTargetExponent_exponent_le mantissa exponent accuracy 1 narrow 969 (by omega)
    (by omega)
  unfold UnpackedFloat.roundWithAccuracy
  generalize UnpackedFloat.shiftToTargetExponent Format.binary64 mantissa exponent accuracy =
    shifted at kept first
  rcases shifted with ⟨extended, middle⟩
  dsimp only at kept first ⊢
  have carried := roundedMantissa_le extended
  have second := shiftToTargetExponent_exponent_le extended.roundedMantissa middle .exact 2
    (by omega) 971 (by omega) (by omega)
  split_ifs
  · trivial
  · exact second

private theorem divCore_hundred {significand : Nat} {exponent : Int} (narrow : significand < 2 ^ 53)
    (small : exponent ≤ 971) :
    let quotient := UnpackedFloat.divCore Format.binary64 significand exponent (100 * 2 ^ 46) (-46)
    quotient.1 < 2 ^ 54 ∧ quotient.2.1 ≤ 968 := by
  -- The quotient is shifted to at most 54 bits, and its exponent is seven below the dividend's.
  have logarithm : significand.log2 ≤ 52 := log2_le narrow
  have target (total : Int) : Format.binary64.targetExponent total = max (total - 53) (-1074) := by
    simp [Format.targetExponent, Format.mantissaBits, Format.minExponent]
  have hundred : Nat.log2 (100 * 2 ^ 46) = 52 := by decide
  simp only [UnpackedFloat.divCore, target, totalExponent, hundred]
  refine ⟨?_, by omega⟩
  generalize shift : (exponent - -46 - min (exponent - -46) (max ((significand.log2 : Int) + 1 +
    exponent - ((52 : Nat) + 1 + -46) - 53) (-1074))).toNat = steps
  have few : significand.log2 + 1 + steps ≤ 106 := by omega
  rw [Nat.shiftLeft_eq, Nat.div_lt_iff_lt_mul (by decide)]
  calc significand * 2 ^ steps
      < 2 ^ (significand.log2 + 1) * 2 ^ steps :=
        Nat.mul_lt_mul_of_pos_right Nat.lt_log2_self (Nat.two_pow_pos _)
    _ = 2 ^ (significand.log2 + 1 + steps) := (Nat.pow_add ..).symm
    _ ≤ 2 ^ 106 := Nat.pow_le_pow_right (by decide) few
    _ ≤ 2 ^ 54 * (100 * 2 ^ 46) := by decide

/-- A hundredth of a finite double is finite. -/
theorem isFinite_hundredth {x : Float} (finite : x.isFinite = true) :
    (Arithmetic.hundredth x).isFinite = true := by
  have hundred : (100 : Float).toModel.unpack =
      .finite .positive (100 * 2 ^ 46) (-46) (by decide) := by rfl
  change (Float.ofModel (.pack (UnpackedFloat.div Format.binary64 x.toModel.unpack
    (100 : Float).toModel.unpack))).isFinite = true
  apply isFinite_pack
  rw [hundred]
  rcases unpack_of_isFinite finite with ⟨sign, zero⟩ | ⟨sign, _, _, positive, unpacked, narrow, small⟩
  · rw [zero]
    trivial
  · rw [unpacked]
    have bounds := divCore_hundred narrow small
    exact storable_roundWithAccuracy _ _ bounds.1 bounds.2

/-! ### Factorials -/

theorem factorialNat_eq (n : Nat) : Arithmetic.factorialNat n = n.factorial := by
  induction n with
  | zero => rfl
  | succ n ih => rw [Arithmetic.factorialNat, Nat.factorial_succ, ih]

/-- Up to the largest argument that is admitted, factorials are finite doubles. -/
theorem isFinite_factorialNat {n : Nat} (small : n ≤ Arithmetic.maxFactorial) :
    (nearest (Arithmetic.factorialNat n)).isFinite = true := by
  have largest : (Arithmetic.factorialNat 170 : Rat) < overflowThreshold := by decide +kernel
  have monotone : n.factorial ≤ Nat.factorial 170 := Nat.factorial_le small
  rw [factorialNat_eq] at largest ⊢
  refine isFinite_nearest ?_
  rw [Nat.abs_cast]
  exact (Nat.cast_le.mpr monotone).trans_lt largest

/-! ### What finite doubles stand for -/

/-- A finite double is a number, and one that is no integer is below 2 ^ 52, where halves end. -/
theorem meaning_of_isFinite {x : Float} (finite : x.isFinite = true) :
    ∃ value : Rat, meaning x = .number value ∧ (value.den ≠ 1 → |value| < 2 ^ 52) := by
  obtain ⟨n, exponent, stands, narrow, -⟩ := exists_multiple finite
  refine ⟨_, stands, fun fractional => ?_⟩
  have below : exponent < 0 := by
    by_contra nonneg
    obtain ⟨power, rfl⟩ := Int.eq_ofNat_of_zero_le (not_lt.mp nonneg)
    refine fractional ?_
    have integer : (n : Rat) * (2 : Rat) ^ ((power : Nat) : Int) = ((n * 2 ^ power : Int) : Rat) := by
      rw [zpow_natCast]
      push_cast
      rfl
    rw [integer, Rat.den_intCast]
  have halves : (2 : Rat) ^ exponent ≤ (2 : Rat) ^ (-1 : Int) :=
    zpow_le_zpow_right₀ (by norm_num) (by omega)
  have magnitude : |(n : Rat)| < 2 ^ 53 := by exact_mod_cast narrow
  rw [abs_mul, abs_of_nonneg (by positivity : (0 : Rat) ≤ 2 ^ exponent)]
  calc |(n : Rat)| * 2 ^ exponent ≤ |(n : Rat)| * (2 : Rat) ^ (-1 : Int) := by gcongr
    _ < 2 ^ 52 := by norm_num at magnitude ⊢; linarith

/-- A double stands for a number that is not rounded. -/
theorem rounded_of_meaning {v : Float} {x : Rat} (stands : meaning v = .number x) :
    rounded x = x ∧ |x| < (2 : Rat) ^ (1024 : Int) := by
  obtain ⟨n, exponent, same, narrow, low, high⟩ := exists_multiple (isFinite_of_meaning stands)
  obtain rfl := Meaning.number.inj (stands.symm.trans same)
  have below : |n * (2 : Rat) ^ exponent| < (2 : Rat) ^ (exponent + 53) := by
    have magnitude : |(n : Rat)| < 2 ^ (53 : Int) := by exact_mod_cast narrow
    rw [abs_mul, abs_of_pos (by positivity : (0 : Rat) < 2 ^ exponent), add_comm,
      zpow_add₀ two_ne_zero]
    exact mul_lt_mul_of_pos_right magnitude (by positivity)
  refine ⟨rounded_eq_self low below rfl, below.trans_le ?_⟩
  exact zpow_le_zpow_right₀ (by norm_num) (by omega)

/-- The magnitude of a double with a fraction is below 2 ^ 52. -/
theorem below_of_meaning {v : Float} {x : Rat} (stands : meaning v = .number x) (fractional : x.den ≠ 1) :
    |x| < 2 ^ 52 := by
  obtain ⟨value, same, below⟩ := meaning_of_isFinite (isFinite_of_meaning stands)
  obtain rfl := Meaning.number.inj (stands.symm.trans same)
  exact below fractional

end Calculator.Binary64
