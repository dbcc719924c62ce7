import Calculator.Proofs.Result
import Calculator.Proofs.Shown

/-! # Reading a result and showing it again

With the default settings a decimal that is shown for a double has ten places, or none. Read again, it gives
a double next to it, and the question is what is shown for this one. From 2 ^ 19 on doubles lie further
apart than decimals, and the double that the decimal came from is found again. Below, the decimal is found
again, unless the double is taken for an integer. Only a decimal 10⁻⁹ away from an integer is in danger, and
there the binade decides, by how 10⁻⁹ falls between the multiples of its last bit.
-/

namespace Calculator

namespace Result

open Binary64 (rounded binade lastBit)
open Rounding (halfEven halfAway)

/-- The default tolerance, a little more than 10⁻⁹. -/
def tolerance : Rat := 4835703278458517 / 2 ^ 82

theorem meaning_defaultTolerance :
    Binary64.meaning Settings.defaultTolerance = .number tolerance := by decide +kernel

theorem lt_tolerance : 1 / 10 ^ 9 < tolerance := by norm_num [tolerance]

theorem tolerance_lt : tolerance < 1 / 10 ^ 9 + 1 / 10 ^ 20 := by norm_num [tolerance]

/-- The decimal that is shown for a number with the default settings. -/
def shown (x : Rat) : Decimal :=
  if x.den = 1 then ⟨x.num, 0⟩
  else if |x - halfEven x| < tolerance then ⟨halfEven x, 0⟩
  else ⟨halfAway (x * 10 ^ 10), 10⟩

/-- With the default settings the decimal of a value is the one that is shown for it. -/
theorem decimal_eq_shown {x : Rat} (below : x.den ≠ 1 → |x| < 2 ^ 52) :
    decimal x Settings.defaultPrecision Settings.defaultTolerance = .ok (shown x) := by
  unfold decimal shown
  by_cases integer : x.den = 1
  · rw [if_pos integer, if_pos integer]
    rfl
  · rw [if_neg integer, if_neg integer, meaning_defaultTolerance]
    simp only [isBelow, Binary64.ratAbs_eq, decide_eq_true_eq]
    split_ifs
    · rfl
    · exact roundTo_eq (below integer) (by decide : 10 ≤ 15)

section Near

variable {x d : Rat} {coefficient n : Int}

private theorem cast_abs_units (units : (coefficient : Rat) = d * 10 ^ 10) (n : Int) :
    ((|coefficient - n * 10 ^ 10| : Int) : Rat) = |d - n| * 10 ^ 10 := by
  rw [Int.cast_abs, Int.cast_sub, Int.cast_mul, Int.cast_pow, Int.cast_ofNat, units,
    Rounding.abs_sub_scaled (by norm_num)]

variable (units : (coefficient : Rat) = d * 10 ^ 10) (near : |d - x| ≤ 1 / (2 * 10 ^ 10))
  (far : ∀ n : Int, tolerance ≤ |x - n|)
include units near far

private theorem le_abs_sub (n : Int) : 1 / 10 ^ 9 ≤ |d - n| := by
  have counted := cast_abs_units units n
  have triangle : |x - n| ≤ |d - x| + |d - n| := by
    rw [abs_sub_comm d x]
    exact abs_sub_le x d n
  have strict : ((9 : Int) : Rat) < (|coefficient - n * 10 ^ 10| : Int) := by
    have distance := far n
    have more := lt_tolerance
    rw [counted]
    push_cast
    linarith
  have integer : (10 : Int) ≤ |coefficient - n * 10 ^ 10| := by
    have above : (9 : Int) < |coefficient - n * 10 ^ 10| := by exact_mod_cast strict
    omega
  have cast : ((10 : Int) : Rat) ≤ (|coefficient - n * 10 ^ 10| : Int) := by exact_mod_cast integer
  rw [counted] at cast
  push_cast at cast
  linarith

end Near

private theorem le_binade_of_large {x : Rat} (large : 2 ^ 19 ≤ |x|) : 19 ≤ binade x := by
  have nonzero : x ≠ 0 := by
    rintro rfl
    norm_num at large
  exact (Binary64.le_binade_iff nonzero).mpr large

section Far

variable {x d : Rat} (far : ∀ n : Int, tolerance ≤ |x - n|)
include far

private theorem tolerance_le_abs_abs_sub (n : Int) : tolerance ≤ |(|x|) - n| := by
  rcases abs_cases x with ⟨same, -⟩ | ⟨opposite, -⟩
  · rw [same]
    exact far n
  · have mirrored := far (-n)
    rw [opposite]
    rwa [Int.cast_neg, sub_neg_eq_add, ← abs_neg, neg_add'] at mirrored

variable (near : |d - x| ≤ 1 / (2 * 10 ^ 10))
include near

private theorem le_abs_iff (n : Int) : (n : Rat) ≤ |d| ↔ n ≤ |x| := by
  have apart := tolerance_le_abs_abs_sub far n
  have more := lt_tolerance
  obtain ⟨below, above⟩ := abs_le.mp ((abs_abs_sub_abs_le d x).trans near)
  constructor
  · intro least
    by_contra less
    rw [abs_of_neg (sub_neg.mpr (not_le.mp less))] at apart
    linarith
  · intro least
    rw [abs_of_nonneg (sub_nonneg.mpr least)] at apart
    linarith

private theorem binade_eq_of_near (large : 0 ≤ binade x) : binade d = binade x := by
  obtain ⟨exponent, power⟩ := Int.eq_ofNat_of_zero_le large
  have nonzero : x ≠ 0 := by
    rintro rfl
    have distance := far 0
    have positive := lt_tolerance
    norm_num at distance
    linarith
  obtain ⟨least, most⟩ := Binary64.binade_spec nonzero
  have cast (exponent : Nat) : (2 : Rat) ^ (exponent : Int) = ((2 ^ exponent : Int) : Rat) := by
    push_cast
    rw [zpow_natCast]
  rw [power] at least most ⊢
  refine Binary64.binade_eq ?_ ?_
  · rw [cast] at least ⊢
    exact (le_abs_iff far near _).mpr least
  · rw [← Nat.cast_succ, cast] at most ⊢
    exact lt_of_not_ge fun beyond => not_le.mpr most ((le_abs_iff far near _).mp beyond)

private theorem rounded_of_large (large : 2 ^ 19 ≤ |x|) (own : rounded x = x) : rounded d = x := by
  -- Doubles lie further apart than decimals here, so the double is found again.
  have high := le_binade_of_large large
  have same : lastBit d = lastBit x := by
    rw [lastBit, lastBit, binade_eq_of_near far near (by omega)]
  have coarse : (2 : Rat) ^ (-33 : Int) ≤ (2 : Rat) ^ lastBit x := by
    apply zpow_le_zpow_right₀ (by norm_num)
    unfold lastBit
    omega
  have multiple : x = halfEven (x / (2 : Rat) ^ lastBit x) * (2 : Rat) ^ lastBit d := by
    rw [same]
    exact own.symm
  have closer : |d - halfEven (x / (2 : Rat) ^ lastBit x) * (2 : Rat) ^ lastBit d| <
      (2 : Rat) ^ lastBit d / 2 := by
    rw [← multiple, same]
    norm_num at coarse near ⊢
    linarith
  exact (Binary64.rounded_eq closer).trans multiple.symm

end Far

/-! ### Below 2 ^ 19 -/

/-- The binades in which a decimal 10⁻⁹ away from an integer is read as a double that is nearer. -/
def leaningBinades : List Int := [-1, 5, 7, 8, 9, 10, 11, 15, 17, 18]

/-- The multiple of `1 / 2 ^ bits` that is nearest to 10⁻⁹. -/
private def ticks (bits : Nat) : Nat := (2 ^ (bits + 1) + 10 ^ 9) / (2 * 10 ^ 9)

private theorem ticks_spec : ∀ bits ∈ 82 :: List.range' 34 20,
    2 * |(2 ^ bits : Int) - ticks bits * 10 ^ 9| < 10 ^ 9 ∧
      (ticks bits * 2 ^ 82 < 4835703278458517 * 2 ^ bits ↔
        52 - (bits : Int) ∈ leaningBinades) := by decide +kernel

private theorem abs_sub_ticks_lt {bits : Nat} (member : bits ∈ 82 :: List.range' 34 20) :
    |1 / 10 ^ 9 - (ticks bits : Rat) / 2 ^ bits| < 1 / 2 ^ bits / 2 := by
  -- No multiple of the unit is nearer to 10⁻⁹ than the one of the table.
  have units : 2 * |((2 ^ bits - ticks bits * 10 ^ 9 : Int) : Rat)| < 10 ^ 9 := by
    exact_mod_cast (ticks_spec bits member).1
  have scaled : ((2 ^ bits - ticks bits * 10 ^ 9 : Int) : Rat) =
      1 / 10 ^ 9 * (10 ^ 9 * 2 ^ bits) - ticks bits / 2 ^ bits * (10 ^ 9 * 2 ^ bits) := by
    push_cast
    field_simp
    ring
  rw [scaled, Rounding.abs_sub_scaled (by positivity)] at units
  rw [div_div, lt_div_iff₀ (by positivity)]
  linarith

private theorem abs_rounded_sub {d : Rat} {n : Int} (beside : |d - n| = 1 / 10 ^ 9) {bits : Nat}
    (member : bits ∈ 82 :: List.range' 34 20) (last : lastBit d = -(bits : Int)) :
    |rounded d - n| = ticks bits / 2 ^ bits := by
  have spacing : (2 : Rat) ^ lastBit d = 1 / 2 ^ bits := by
    rw [last, zpow_neg, zpow_natCast, one_div]
  obtain ⟨sign, side, signed⟩ : ∃ sign : Int, |(sign : Rat)| = 1 ∧ d - n = sign * (1 / 10 ^ 9) := by
    rcases eq_or_eq_neg_of_abs_eq beside with above | below
    · exact ⟨1, by norm_num, by rw [above]; norm_num⟩
    · exact ⟨-1, by norm_num, by rw [below]; norm_num⟩
  have multiple : ((n * 2 ^ bits + sign * ticks bits : Int) : Rat) * (2 : Rat) ^ lastBit d =
      n + sign * (ticks bits / 2 ^ bits) := by
    rw [spacing]
    push_cast
    field_simp
  have nearest : rounded d = n + sign * (ticks bits / 2 ^ bits) := by
    rw [← multiple]
    apply Binary64.rounded_eq
    have error : d - (n + sign * (ticks bits / 2 ^ bits)) =
        sign * (1 / 10 ^ 9 - ticks bits / 2 ^ bits) := by
      rw [← sub_sub, signed]
      ring
    rw [multiple, spacing, error, abs_mul, side, one_mul]
    exact abs_sub_ticks_lt member
  rw [nearest, add_sub_cancel_left, abs_mul, side, one_mul, abs_of_nonneg (by positivity)]

section Small

variable {d : Rat} (small : |d| < 2 ^ 19)
include small

/-- Below 2 ^ 19, rounding to doubles moves a number by less than the last decimal place. -/
theorem abs_rounded_sub_le_of_small (nonzero : d ≠ 0) : |rounded d - d| ≤ 1 / 2 ^ 35 := by
  have fine : lastBit d ≤ -34 := Binary64.lastBit_le nonzero (by norm_num) (by norm_num; exact small)
  have spacing : (2 : Rat) ^ lastBit d ≤ (2 : Rat) ^ (-34 : Int) :=
    zpow_le_zpow_right₀ (by norm_num) fine
  have close := Binary64.abs_rounded_sub_le d
  norm_num at spacing ⊢
  linarith

section Beside

variable {n : Int} (beside : |d - n| = 1 / 10 ^ 9)
include beside

private theorem exists_bits :
    ∃ bits ∈ 82 :: List.range' 34 20, binade d = 52 - (bits : Int) ∧ lastBit d = -(bits : Int) := by
  by_cases zero : n = 0
  · have tiny : binade d = -30 := by
      rw [zero, Int.cast_zero, sub_zero] at beside
      apply Binary64.binade_eq <;> rw [beside] <;> norm_num
    refine ⟨82, by simp, by rw [tiny]; rfl, ?_⟩
    rw [lastBit, tiny]
    rfl
  · have one : (1 : Rat) ≤ |(n : Rat)| := by
      have integer : 1 ≤ |n| := Int.one_le_abs zero
      exact_mod_cast integer
    have half : 1 / 2 ≤ |d| := by
      have triangle := abs_sub_abs_le_abs_sub (n : Rat) d
      rw [abs_sub_comm, beside] at triangle
      norm_num at triangle
      linarith
    have nonzero : d ≠ 0 := by
      rintro rfl
      norm_num at half
    have low : -1 ≤ binade d := (Binary64.le_binade_iff nonzero).mpr (by norm_num at half ⊢; exact half)
    have high : ¬ 19 ≤ binade d := mt (Binary64.le_binade_iff nonzero).mp (not_le.mpr small)
    refine ⟨(52 - binade d).toNat, ?_, by omega, ?_⟩
    · rw [List.mem_cons, List.mem_range'_1]
      omega
    · rw [lastBit]
      omega

/-- Beside an integer the binade decides whether the double is taken for the integer. -/
theorem abs_rounded_sub_lt_iff : |rounded d - n| < tolerance ↔ binade d ∈ leaningBinades := by
  obtain ⟨bits, member, which, last⟩ := exists_bits small beside
  rw [abs_rounded_sub beside member last, which, ← (ticks_spec bits member).2, tolerance,
    div_lt_div_iff₀ (by positivity) (by positivity)]
  exact_mod_cast Iff.rfl

end Beside

end Small

end Result

namespace Decimal

open Rounding (halfEven)

/-- Whether the double that a decimal is read as is taken for an integer, though the decimal was not. -/
def Leans (d : Decimal) : Prop :=
  |d.value - halfEven d.value| = 1 / 10 ^ 9 ∧ Binary64.binade d.value ∈ Result.leaningBinades

instance (d : Decimal) : Decidable d.Leans := inferInstanceAs (Decidable (_ ∧ _))

/-- The decimal that is shown for the reading of a decimal that is shown. -/
def settled (d : Decimal) : Decimal := if d.Leans then ⟨halfEven d.value, 0⟩ else d

@[simp] theorem value_integer (n : Int) : value ⟨n, 0⟩ = n := by simp [value]

/-- An integer does not lean. -/
@[simp] theorem settled_integer (n : Int) : settled ⟨n, 0⟩ = ⟨n, 0⟩ := by simp [settled, Leans]

theorem settled_of_leans {d : Decimal} (leans : d.Leans) : d.settled = ⟨halfEven d.value, 0⟩ :=
  if_pos leans

theorem settled_of_not_leans {d : Decimal} (stands : ¬ d.Leans) : d.settled = d := if_neg stands

example : (⟨9999999990, 10⟩ : Decimal).Leans ∧ ¬ (⟨19999999990, 10⟩ : Decimal).Leans := by
  decide +kernel

/-- What has settled stays. -/
theorem settled_settled (d : Decimal) : d.settled.settled = d.settled := by
  by_cases leans : d.Leans
  · rw [settled_of_leans leans, settled_integer]
  · rw [settled_of_not_leans leans, settled_of_not_leans leans]

end Decimal

namespace Result

open Binary64 (rounded binade lastBit)
open Rounding (halfEven halfAway)

variable {x : Rat} {d : Decimal}

@[simp] theorem shown_intCast (n : Int) : shown n = ⟨n, 0⟩ := by simp [shown]

section Places

variable (places : d.places = 10) (small : |d.value| < 2 ^ 19)
  (apart : ∀ n : Int, 1 / 10 ^ 9 ≤ |d.value - n|)
include places

private theorem coefficient_eq : (d.coefficient : Rat) = d.value * 10 ^ 10 := by
  rw [Decimal.value, places, div_mul_cancel₀ _ (by norm_num)]

include apart

private theorem abs_value_sub_eq {n : Int} (close : |rounded d.value - d.value| ≤ 1 / 2 ^ 35)
    (snaps : |rounded d.value - n| < tolerance) : |d.value - n| = 1 / 10 ^ 9 := by
  have counted := cast_abs_units (coefficient_eq places) n
  have few : ((|d.coefficient - n * 10 ^ 10| : Int) : Rat) < (11 : Int) := by
    have triangle := abs_sub_le d.value (rounded d.value) n
    have less := tolerance_lt
    rw [abs_sub_comm d.value (rounded d.value)] at triangle
    rw [counted]
    push_cast
    norm_num at close less
    linarith
  have integer : |d.coefficient - n * 10 ^ 10| ≤ 10 := by
    have strict : |d.coefficient - n * 10 ^ 10| < 11 := by exact_mod_cast few
    omega
  have cast : ((|d.coefficient - n * 10 ^ 10| : Int) : Rat) ≤ (10 : Int) := by exact_mod_cast integer
  rw [counted] at cast
  push_cast at cast
  exact le_antisymm (by linarith) (apart n)

include small

private theorem shown_rounded_of_small : shown (rounded d.value) = d.settled := by
  -- Doubles lie closer together than decimals here.
  have nonzero : d.value ≠ 0 := by
    intro zero
    have distance := apart 0
    rw [zero] at distance
    norm_num at distance
  have close := abs_rounded_sub_le_of_small small nonzero
  have fractional : (rounded d.value).den ≠ 1 := by
    intro integer
    have distance := apart (rounded d.value).num
    rw [Rat.coe_int_num_of_den_eq_one integer, abs_sub_comm] at distance
    norm_num at distance close
    linarith
  have again : halfAway (rounded d.value * 10 ^ 10) = d.coefficient := by
    apply Rounding.halfAway_eq
    rw [coefficient_eq places, Rounding.abs_sub_scaled (by norm_num)]
    norm_num at close ⊢
    linarith
  rw [shown, if_neg fractional, again, ← places]
  by_cases snaps : |rounded d.value - halfEven (rounded d.value)| < tolerance
  · have beside := abs_value_sub_eq places apart close snaps
    have nearest : halfEven d.value = halfEven (rounded d.value) :=
      Rounding.halfEven_eq (by rw [beside]; norm_num)
    have leans : d.Leans := ⟨nearest ▸ beside, (abs_rounded_sub_lt_iff small beside).mp snaps⟩
    rw [if_pos snaps, Decimal.settled_of_leans leans, nearest]
  · have stands : ¬ d.Leans := by
      rintro ⟨beside, binade⟩
      have nearer := (abs_rounded_sub_lt_iff small beside).mpr binade
      exact snaps ((Rounding.abs_sub_halfEven_le _ _).trans_lt nearer)
    rw [if_neg snaps, Decimal.settled_of_not_leans stands]

end Places

private theorem not_leans_of_large (large : 2 ^ 19 ≤ |d.value|) : ¬ d.Leans := by
  rintro ⟨-, leaning⟩
  have top : ∀ exponent ∈ leaningBinades, exponent ≤ 18 := by decide
  have high := (le_binade_of_large large).trans (top _ leaning)
  norm_num at high

/-- What is shown for a double, read and shown again, has settled. -/
theorem shown_rounded_shown (own : rounded x = x) (below : x.den ≠ 1 → |x| < 2 ^ 52) :
    shown (rounded (shown x).value) = (shown x).settled := by
  by_cases integer : x.den = 1
  · have same : x = x.num := (Rat.coe_int_num_of_den_eq_one integer).symm
    rw [same, shown_intCast, Decimal.value_integer, ← same, own, Decimal.settled_integer, same,
      shown_intCast]
    rfl
  by_cases snaps : |x - halfEven x| < tolerance
  · have snapped : shown x = ⟨halfEven x, 0⟩ := by rw [shown, if_neg integer, if_pos snaps]
    have fits : |(halfEven x : Rat)| < (2 : Rat) ^ ((0 : Int) + 53) := by
      have close := Rounding.abs_halfEven_sub_le x
      have triangle := abs_sub_abs_le_abs_sub (halfEven x : Rat) x
      have less := below integer
      norm_num at less ⊢
      linarith
    have exact : rounded (halfEven x : Rat) = halfEven x :=
      Binary64.rounded_eq_self (by norm_num) fits (by rw [zpow_zero, mul_one])
    rw [snapped, Decimal.value_integer, exact, shown_intCast, Decimal.settled_integer]
  · have far (n : Int) : tolerance ≤ |x - n| :=
      (not_lt.mp snaps).trans (Rounding.abs_sub_halfEven_le x n)
    have decimals : shown x = ⟨halfAway (x * 10 ^ 10), 10⟩ := by
      rw [shown, if_neg integer, if_neg snaps]
    have near : |(shown x).value - x| ≤ 1 / (2 * 10 ^ 10) := by
      rw [decimals]
      exact abs_value_halfAway_sub_le 10 x
    have power : (2 : Rat) ^ 19 = ((2 ^ 19 : Int) : Rat) := by norm_num
    by_cases large : 2 ^ 19 ≤ |x|
    · have stands : ¬ (shown x).Leans := by
        apply not_leans_of_large
        rw [power] at large ⊢
        exact (le_abs_iff far near _).mpr large
      rw [rounded_of_large far near large own, Decimal.settled_of_not_leans stands]
    · have small : |(shown x).value| < 2 ^ 19 := by
        rw [power] at large ⊢
        exact not_le.mp (mt (le_abs_iff far near _).mp large)
      have places : (shown x).places = 10 := by rw [decimals]
      exact shown_rounded_of_small places small (le_abs_sub (coefficient_eq places) near far)

end Result

end Calculator
