import Calculator.Number.Binary64
import Mathlib

/-! # Doubles and their parts

A double keeps a finite value in one form: a significand of 53 bits, or fewer with the least exponent,
and an exponent that fits its field. A value in this form is unpacked as it was packed, so what a double
that is put together from such parts stands for can be read off them.
-/

namespace Calculator.Binary64

open Float.Model (Format UnpackedFloat)
open Float.Model.UnpackedFloat (Sign unpackSign unpackExponent unpackMantissa packComponents)

/-- The form in which doubles keep finite values. -/
def Canonical : UnpackedFloat → Prop
  | .zero _ => True
  | .finite _ significand exponent _ => significand < 2 ^ 53 ∧ -1074 ≤ exponent ∧ exponent ≤ 971 ∧
      (2 ^ 52 ≤ significand ∨ exponent = -1074)
  | _ => False

private theorem exponentBias_eq : Format.binary64.exponentBias = 1023 := by decide

/-- Only an exhausted exponent field makes a double infinite or no number. -/
theorem isFinite_unpack (bits : BitVec Format.binary64.numBits) :
    (UnpackedFloat.unpack Format.binary64 bits).isFinite = true ↔ unpackExponent bits ≠ -1#_ := by
  unfold UnpackedFloat.unpack
  by_cases exhausted : unpackExponent bits = -1#_
  · simp only [exhausted, if_true, ne_eq, not_true_eq_false, iff_false]
    split <;> simp [UnpackedFloat.isFinite]
  · simp only [exhausted, if_false, ne_eq, not_false_eq_true, iff_true]
    split_ifs <;> rfl

private theorem toNat_leadingOne (fraction : BitVec 52) :
    (1#1 ++ fraction).toNat = 2 ^ 52 + fraction.toNat := by
  rw [BitVec.toNat_append, ← Nat.shiftLeft_add_eq_or_of_lt fraction.isLt]
  simp [Nat.shiftLeft_eq]

private theorem canonical_unpack_bits {bits : BitVec Format.binary64.numBits}
    (finite : (UnpackedFloat.unpack Format.binary64 bits).isFinite = true) :
    Canonical (UnpackedFloat.unpack Format.binary64 bits) := by
  have notExhausted := (isFinite_unpack bits).mp finite
  have field : (unpackExponent bits).toNat ≤ 2046 := by
    have bound : (unpackExponent bits).toNat < 2 ^ 11 := (unpackExponent bits).isLt
    by_contra large
    refine notExhausted (BitVec.eq_of_toNat_eq ?_)
    change (unpackExponent bits).toNat = 2047
    omega
  have fraction : (unpackMantissa bits).toNat < 2 ^ 52 := (unpackMantissa bits).isLt
  simp only [UnpackedFloat.unpack, notExhausted, if_false, exponentBias_eq]
  split_ifs with subnormal zero
  · trivial
  · simp only [Canonical, subnormal, BitVec.toNat_zero]
    omega
  · have positive : (unpackExponent bits).toNat ≠ 0 := fun none =>
      subnormal (BitVec.eq_of_toNat_eq none)
    simp only [Canonical, toNat_leadingOne (unpackMantissa bits)]
    omega

/-- A finite double is kept in canonical form. -/
theorem canonical_unpack {x : Float} (finite : x.isFinite = true) : Canonical x.toModel.unpack :=
  canonical_unpack_bits finite

section Pack

variable (sign : Sign) (exponent : BitVec Format.binary64.exponentBits)
  (fraction : BitVec Format.binary64.mantissaBitsWithoutImplicit)

private theorem unpackSign_packComponents :
    Sign.ofBitVec (unpackSign (packComponents Format.binary64 sign exponent fraction)) = sign := by
  have bit : unpackSign (packComponents Format.binary64 sign exponent fraction) = sign.toBitVec := by
    change (sign.toBitVec ++ exponent ++ fraction).extractLsb' 63 1 = sign.toBitVec
    rw [BitVec.extractLsb'_append_eq_of_le (by decide), BitVec.extractLsb'_append_eq_of_le (by decide)]
    cases sign <;> rfl
  rw [bit]
  cases sign <;> rfl

private theorem unpack_normal (some : exponent ≠ 0#_) (notExhausted : exponent ≠ -1#_) :
    UnpackedFloat.unpack Format.binary64 (packComponents Format.binary64 sign exponent fraction) =
      .finite sign (1#1 ++ fraction).toNat (exponent.toNat - 1075)
        (toNat_leadingOne fraction ▸ Nat.lt_of_lt_of_le (by decide) (Nat.le_add_right ..)) := by
  simp only [UnpackedFloat.unpack, UnpackedFloat.unpackExponent_packComponents,
    UnpackedFloat.unpackMantissa_packComponents, unpackSign_packComponents, notExhausted, if_false, some,
    exponentBias_eq]
  rfl

private theorem unpack_subnormal (positive : 0 < fraction.toNat) :
    UnpackedFloat.unpack Format.binary64 (packComponents Format.binary64 sign 0#_ fraction) =
      .finite sign fraction.toNat (-1074) positive := by
  have some : fraction ≠ 0#_ := by
    rintro rfl
    exact absurd positive (by decide)
  have notExhausted : (0#_ : BitVec Format.binary64.exponentBits) ≠ -1#_ := by decide
  simp only [UnpackedFloat.unpack, UnpackedFloat.unpackExponent_packComponents,
    UnpackedFloat.unpackMantissa_packComponents, unpackSign_packComponents, notExhausted, if_false,
    if_true, some, dif_neg, not_false_eq_true, exponentBias_eq]
  rfl

end Pack

/-- A canonical value is unpacked as it was packed. -/
theorem unpack_pack {value : UnpackedFloat} (canonical : Canonical value) :
    UnpackedFloat.unpack Format.binary64 (UnpackedFloat.pack Format.binary64 value) = value := by
  cases value with
  | infinity sign => cases canonical
  | notANumber => cases canonical
  | zero sign => cases sign <;> rfl
  | finite sign significand exponent positive =>
    obtain ⟨narrow, low, high, full⟩ := canonical
    have fits : ¬ 2 ^ 11 ≤ (exponent + 1023 + 52).toNat + 1 := by omega
    simp only [UnpackedFloat.pack, exponentBias_eq, Nat.cast_ofNat, if_neg fits]
    by_cases normal : 2 ^ 52 ≤ significand
    · have log : significand.log2 + 1 = Format.binary64.mantissaBits :=
        congrArg (· + 1) ((Nat.log2_eq_iff positive.ne').mpr ⟨normal, narrow⟩)
      have field : (BitVec.ofNat 11 (exponent + 1023 + 52).toNat).toNat =
          (exponent + 1023 + 52).toNat := by
        rw [BitVec.toNat_ofNat]
        exact Nat.mod_eq_of_lt (by omega)
      have some : BitVec.ofNat 11 (exponent + 1023 + 52).toNat ≠ 0#11 := fun none => by
        have zero : (exponent + 1023 + 52).toNat = 0 := field.symm.trans (congrArg BitVec.toNat none)
        omega
      have notExhausted : BitVec.ofNat 11 (exponent + 1023 + 52).toNat ≠ -1#11 := fun all => by
        have last : (exponent + 1023 + 52).toNat = 2047 :=
          field.symm.trans (congrArg BitVec.toNat all)
        omega
      have whole : (1#1 ++ BitVec.ofNat 52 significand).toNat = significand := by
        rw [toNat_leadingOne, BitVec.toNat_ofNat]
        omega
      rw [if_pos log, unpack_normal _ _ _ some notExhausted]
      simp only [whole, field, UnpackedFloat.finite.injEq, true_and]
      omega
    · have log : ¬ significand.log2 + 1 = Format.binary64.mantissaBits := by
        have below : significand.log2 < 52 := (Nat.log2_lt positive.ne').mpr (by omega)
        change ¬ significand.log2 + 1 = 53
        omega
      have whole : (BitVec.ofNat Format.binary64.mantissaBitsWithoutImplicit significand).toNat =
          significand := by
        rw [BitVec.toNat_ofNat]
        exact Nat.mod_eq_of_lt (by change significand < 2 ^ 52; omega)
      rw [if_neg log, unpack_subnormal _ _ (whole.symm ▸ positive)]
      simp only [whole, full.resolve_left normal]

/-! ### What canonical values stand for -/

/-- The number that a finite value is. -/
def amount : UnpackedFloat → Rat
  | .finite sign significand exponent _ => (sign.apply significand : Int) * (2 : Rat) ^ exponent
  | _ => 0

section Amount

variable {significand : Nat} {exponent : Int} (positive : 0 < significand)

theorem amount_zero (sign : Sign) : amount (.zero sign) = 0 := rfl

theorem amount_positive :
    amount (.finite .positive significand exponent positive) = significand * 2 ^ exponent := rfl

theorem amount_negative :
    amount (.finite .negative significand exponent positive) = -(significand * 2 ^ exponent) := by
  simp [amount, Sign.apply]

end Amount

/-- A finite double stands for the amount of its parts. -/
theorem meaning_of_isFinite_unpack {x : Float} (finite : x.isFinite = true) :
    meaning x = .number (amount x.toModel.unpack) := by
  have canonical := canonical_unpack finite
  unfold meaning
  cases unpacked : x.toModel.unpack with
  | finite => rfl
  | zero => rfl
  | infinity => simp [unpacked, Canonical] at canonical
  | notANumber => simp [unpacked, Canonical] at canonical

private theorem abs_sign_apply (sign : Sign) (n : Nat) : |sign.apply (n : Int)| = n := by
  cases sign <;> simp [Sign.apply]

/-- A finite double is a multiple of a power of two, by an integer of at most 53 bits. -/
theorem exists_multiple {x : Float} (finite : x.isFinite = true) :
    ∃ n exponent : Int, meaning x = .number (n * (2 : Rat) ^ exponent) ∧ |n| < 2 ^ 53 ∧
      -1074 ≤ exponent ∧ exponent ≤ 971 := by
  have canonical := canonical_unpack finite
  rw [meaning_of_isFinite_unpack finite]
  generalize x.toModel.unpack = unpacked at canonical
  cases unpacked with
  | infinity => cases canonical
  | notANumber => cases canonical
  | zero sign => exact ⟨0, 0, by simp [amount], by simp, by simp, by simp⟩
  | finite sign significand exponent positive =>
    obtain ⟨narrow, low, high, -⟩ := canonical
    refine ⟨sign.apply significand, exponent, rfl, ?_, low, high⟩
    rw [abs_sign_apply]
    exact_mod_cast narrow

/-- Only finite doubles stand for numbers. -/
theorem isFinite_of_meaning {x : Float} {value : Rat} (stands : meaning x = .number value) :
    x.isFinite = true := by
  change x.toModel.unpack.isFinite = true
  unfold meaning at stands
  cases unpacked : x.toModel.unpack with
  | finite => rfl
  | zero => rfl
  | infinity => simp [unpacked] at stands
  | notANumber => simp [unpacked] at stands

/-- What a double stands for is the amount of a canonical value. -/
theorem canonical_of_meaning {x : Float} {value : Rat} (stands : meaning x = .number value) :
    Canonical x.toModel.unpack ∧ amount x.toModel.unpack = value := by
  have finite := isFinite_of_meaning stands
  rw [meaning_of_isFinite_unpack finite] at stands
  exact ⟨canonical_unpack finite, Meaning.number.inj stands⟩

/-- Packing keeps what a canonical value stands for. -/
theorem meaning_pack {value : UnpackedFloat} (canonical : Canonical value) :
    meaning (.ofModel (.pack value)) = .number (amount value) := by
  have unpacked : (Float.ofModel (.pack value)).toModel.unpack = value := unpack_pack canonical
  unfold meaning
  rw [unpacked]
  cases value with
  | finite => rfl
  | zero => rfl
  | infinity => cases canonical
  | notANumber => cases canonical

/-- The double of a significand and an exponent stands for what they say, if it has this form. -/
theorem meaning_ofParts (negative : Bool) {significand : Nat} {exponent : Int}
    (narrow : significand < 2 ^ 53) (low : -1074 ≤ exponent) (high : exponent ≤ 971)
    (full : 2 ^ 52 ≤ significand ∨ exponent = -1074 ∨ significand = 0) :
    meaning (ofParts negative significand exponent) =
      .number ((if negative then -1 else 1) * (significand * (2 : Rat) ^ exponent)) := by
  unfold ofParts
  by_cases positive : 0 < significand
  · have canonical : Canonical
        (.finite (if negative then .negative else .positive) significand exponent positive) :=
      ⟨narrow, low, high, full.imp_right fun rest => rest.resolve_right positive.ne'⟩
    simp only [dif_pos positive]
    rw [meaning_pack canonical]
    cases negative <;> simp [amount, Sign.apply]
  · obtain rfl : significand = 0 := by omega
    simp only [dif_neg positive]
    rw [meaning_pack (show Canonical (.zero _) from trivial)]
    simp [amount]

/-! ### The opposite double -/

/-- The opposite double is unpacked with the opposite sign. -/
theorem unpack_neg (x : Float) : (-x).toModel.unpack = x.toModel.unpack.neg := by
  have canonical (finite : x.isFinite = true) : Canonical x.toModel.unpack := canonical_unpack finite
  change x.toModel.unpack.isFinite = true → _ at canonical
  change UnpackedFloat.unpack Format.binary64
    (UnpackedFloat.pack Format.binary64 x.toModel.unpack.neg) = _
  generalize x.toModel.unpack = unpacked at canonical
  cases unpacked with
  | notANumber => rfl
  | infinity sign => cases sign <;> rfl
  | zero sign => exact unpack_pack (canonical rfl)
  | finite sign significand exponent positive =>
    have same : Canonical (.finite (-sign) significand exponent positive) := canonical rfl
    exact unpack_pack same

/-- A double is determined by what it is unpacked to. -/
theorem unpack_inj {x y : Float} (same : x.toModel.unpack = y.toModel.unpack) : x = y := by
  rcases x with ⟨⟨bits, valid⟩⟩
  rcases y with ⟨⟨other, otherValid⟩⟩
  have equal : bits.toBitVec = other.toBitVec :=
    (UnpackedFloat.unpack_inj_of_valid valid otherValid).mp same
  obtain rfl : bits = other := UInt64.toBitVec_inj.mp equal
  rfl

/-- The sign of a double can be changed twice. -/
theorem neg_neg_eq_self (x : Float) : -(-x) = x := by
  apply unpack_inj
  rw [unpack_neg, unpack_neg]
  cases x.toModel.unpack with
  | notANumber => rfl
  | infinity sign | zero sign | finite sign => cases sign <;> rfl

/-- The opposite double stands for the opposite number. -/
theorem meaning_neg {x : Float} {value : Rat} (stands : meaning x = .number value) :
    meaning (-x) = .number (-value) := by
  unfold meaning at stands ⊢
  rw [unpack_neg]
  cases unpacked : x.toModel.unpack with
  | notANumber => simp [unpacked] at stands
  | infinity sign => simp [unpacked] at stands
  | zero sign =>
    simp only [unpacked, Meaning.number.injEq] at stands
    simp [UnpackedFloat.neg, ← stands]
  | finite sign significand exponent positive =>
    simp only [unpacked, Meaning.number.injEq] at stands
    cases sign <;> simp [UnpackedFloat.neg, ← stands, Sign.apply]

theorem isFinite_neg {x : Float} (finite : x.isFinite = true) : (-x).isFinite = true :=
  isFinite_of_meaning (meaning_neg (meaning_of_isFinite_unpack finite))

end Calculator.Binary64
