import Calculator.Proofs.Formatting.Canonical
import Calculator.Proofs.Number.Difference
import Calculator.Proofs.Number.Order
import Calculator.Proofs.Result

/-! # What a text says about its value

The text of a result denotes a number that is rounded once: to an integer if one is near enough, else to the
last of its decimal places. Whether one is near enough is tested on doubles, and their difference is exact.
Both roundings keep order and leave integers alone, and among the numbers that are nearest to one integer
those that are taken for it are the inner ones. So the order of two values is never reversed, whichever way
each of them is rounded.
-/

namespace Calculator.Result

open Binary64 (Meaning meaning)
open Rounding (halfEven halfAway IsNearestEven IsNearestAway)

variable {places : Nat} {tolerance : Meaning} {x y : Rat}

/-- What is shown for a value: the value if it is an integer, else the nearest integer if it is nearer than
the tolerance, else the nearest multiple of the last place. Ties go to the even integer, and away from zero
among the multiples of the last place. -/
def Shows (places : Nat) (tolerance : Meaning) (value number : Rat) : Prop :=
  (value.den = 1 → number = value) ∧
  (value.den ≠ 1 → ∃ integer : Int, IsNearestEven value integer ∧
    (isBelow |value - integer| tolerance = true → number = integer) ∧
    (isBelow |value - integer| tolerance = false →
      ∃ units : Int, IsNearestAway (value * 10 ^ places) units ∧ number = units / 10 ^ places))

/-! ### The tolerance test -/

section Distance

variable {value : Float} (stands : meaning value = .number x)
include stands

/-- The distance to the nearest integer is itself a double, so that doubles are subtracted exactly. -/
theorem rounded_distance : Binary64.rounded (x - halfEven x) = x - halfEven x := by
  obtain ⟨n, exponent, multiple, narrow, low, -⟩ :=
    Binary64.exists_multiple (Binary64.isFinite_of_meaning stands)
  obtain rfl := Meaning.number.inj (stands.symm.trans multiple)
  rcases le_or_gt 0 exponent with integer | fraction
  · obtain ⟨power, rfl⟩ := Int.eq_ofNat_of_zero_le integer
    have whole : (n : Rat) * 2 ^ (power : Int) = ((n * 2 ^ power : Int) : Rat) := by
      rw [zpow_natCast]
      push_cast
      rfl
    rw [whole, Rounding.halfEven_intCast, sub_self]
    simp [Binary64.rounded]
  · have near := Rounding.abs_sub_halfEven_le ((n : Rat) * 2 ^ exponent) 0
    have magnitude : |(n : Rat)| < 2 ^ 53 := by exact_mod_cast narrow
    refine Binary64.rounded_eq_self (n := n - halfEven (n * 2 ^ exponent) * 2 ^ (-exponent).toNat)
      low ?_ ?_
    · calc |(n : Rat) * 2 ^ exponent - halfEven (n * 2 ^ exponent)|
          ≤ |(n : Rat)| * 2 ^ exponent := by
            rwa [Int.cast_zero, sub_zero, abs_mul, abs_of_pos (by positivity : (0 : Rat) < 2 ^ exponent)]
              at near
        _ < 2 ^ 53 * 2 ^ exponent := by gcongr
        _ = 2 ^ (exponent + 53) := by
            rw [zpow_add₀ two_ne_zero]
            ring
    · have unit : (2 : Rat) ^ (-exponent).toNat * 2 ^ exponent = 1 := by
        rw [← zpow_natCast, Int.toNat_of_nonneg (by omega), ← zpow_add₀ two_ne_zero, neg_add_cancel,
          zpow_zero]
      push_cast
      rw [sub_mul, mul_assoc, unit, mul_one]

/-- The integer nearest to a double is a double as well. -/
theorem meaning_nearest_halfEven :
    meaning (Binary64.nearest (halfEven x)) = .number (halfEven x : Rat) := by
  obtain ⟨own, small⟩ : Binary64.rounded (halfEven x) = halfEven x ∧
      |(halfEven x : Rat)| < (2 : Rat) ^ (1024 : Int) := by
    by_cases integer : x.den = 1
    · have same : (halfEven x : Rat) = x := by
        obtain ⟨n, rfl⟩ : ∃ n : Int, x = n := ⟨x.num, (Rat.den_eq_one_iff x).mp integer |>.symm⟩
        rw [Rounding.halfEven_intCast]
      rw [same]
      exact Binary64.rounded_of_meaning stands
    · have below := Binary64.below_of_meaning stands integer
      have close := Rounding.abs_halfEven_sub_le x
      have triangle := abs_sub_abs_le_abs_sub (halfEven x : Rat) x
      have narrow : |(halfEven x : Rat)| < 2 ^ (0 + 53 : Int) := by
        norm_num at below ⊢
        linarith
      have multiple : (halfEven x : Rat) = halfEven x * (2 : Rat) ^ (0 : Int) := by simp
      have large : (2 : Rat) ^ (0 + 53 : Int) < 2 ^ (1024 : Int) :=
        zpow_lt_zpow_right₀ (by norm_num) (by norm_num)
      exact ⟨Binary64.rounded_eq_self (by norm_num) narrow multiple, narrow.trans large⟩
  have nearest := Binary64.meaning_nearest small (own.symm ▸ small)
  rwa [own] at nearest

/-- The distance that doubles compute is the exact one. -/
theorem meaning_distance :
    meaning (value - Binary64.nearest (halfEven x)).abs = .number |x - halfEven x| := by
  have own := rounded_distance stands
  have small : |x - halfEven x| < (2 : Rat) ^ (1024 : Int) :=
    calc |x - halfEven x| ≤ 1 / 2 := by
          rw [abs_sub_comm]
          exact Rounding.abs_halfEven_sub_le x
      _ < 1 := by norm_num
      _ < (2 : Rat) ^ (1024 : Int) := one_lt_zpow₀ (by norm_num) (by norm_num)
  have exact := Binary64.meaning_nearest small (own.symm ▸ small)
  rw [own] at exact
  exact Binary64.meaning_abs (Binary64.meaning_sub stands (meaning_nearest_halfEven stands) exact)

/-- A number is below a tolerance exactly if the double that stands for it is. -/
theorem isBelow_iff_lt (tolerance : Float) : isBelow x (meaning tolerance) = true ↔ value < tolerance := by
  cases bound : meaning tolerance with
  | number y => exact decide_eq_true_iff.trans (Binary64.lt_iff stands bound).symm
  | infinity negative =>
    rw [Binary64.lt_infinity_iff stands bound]
    exact iff_of_eq (Bool.not_eq_true' negative)
  | notANumber => exact iff_of_false Bool.false_ne_true (Binary64.not_lt_of_notANumber bound)

end Distance

/-- Whether a value with a fraction is taken for an integer is decided by doubles: by the value less the
double of the nearest integer. -/
theorem decimal_of_fraction {value : Float} (stands : meaning value = .number x) (fractional : x.den ≠ 1)
    (precision : Int) (tolerance : Float) :
    decimal x precision tolerance =
      if (value - Binary64.nearest (halfEven x)).abs < tolerance then .ok ⟨halfEven x, 0⟩
      else roundTo precision x := by
  have test := isBelow_iff_lt (meaning_distance stands) tolerance
  rw [decimal, if_neg fractional]
  simp only [Binary64.ratAbs_eq, test]
  rfl

/-! ### The number that is shown -/

/-- A value with a number of decimal places. -/
def inPlaces (places : Nat) (x : Rat) : Rat := halfAway (x * 10 ^ places) / 10 ^ places

/-- The number that is shown for a value. Integers need no case of their own. -/
def displayed (places : Nat) (tolerance : Meaning) (x : Rat) : Rat :=
  if isBelow |x - halfEven x| tolerance then halfEven x else inPlaces places x

@[simp] theorem inPlaces_intCast (places : Nat) (n : Int) : inPlaces places n = n := by
  have integer : halfAway ((n : Rat) * 10 ^ places) = n * 10 ^ places := by
    apply Rounding.halfAway_eq
    simp
  rw [inPlaces, integer, Int.cast_mul, Int.cast_pow, Int.cast_ofNat,
    mul_div_cancel_right₀ _ (by positivity)]

theorem displayed_of_den_eq_one (integer : x.den = 1) : displayed places tolerance x = x := by
  obtain ⟨n, rfl⟩ : ∃ n : Int, x = n := ⟨x.num, (Rat.den_eq_one_iff x).mp integer |>.symm⟩
  simp [displayed]

/-- What is shown for a value is at most one half away from it. -/
theorem abs_displayed_sub_le (places : Nat) (tolerance : Meaning) (x : Rat) :
    |displayed places tolerance x - x| ≤ 1 / 2 := by
  unfold displayed
  split_ifs with near
  · exact Rounding.abs_halfEven_sub_le x
  · have unit : (1 : Rat) ≤ 10 ^ places := one_le_pow₀ (by norm_num)
    refine (abs_value_halfAway_sub_le places x).trans ?_
    gcongr
    linarith

/-- The displayed number is what has to be shown. -/
theorem shows_displayed (places : Nat) (tolerance : Meaning) (x : Rat) :
    Shows places tolerance x (displayed places tolerance x) := by
  refine ⟨displayed_of_den_eq_one, fun _ => ⟨halfEven x, Rounding.isNearestEven_halfEven x, ?_, ?_⟩⟩
  · exact fun near => if_pos near
  · intro far
    refine ⟨halfAway (x * 10 ^ places), Rounding.isNearestAway_halfAway _, ?_⟩
    rw [displayed, if_neg (by simp [far])]
    rfl

/-- The decimal that is shown for a double denotes the displayed number. -/
theorem decimal_eq_displayed (tolerance : Float) (below : x.den ≠ 1 → |x| < 2 ^ 52)
    (few : places ≤ 15) : ∃ shown, decimal x places tolerance = .ok shown ∧ shown.places ≤ places ∧
      shown.value = displayed places (meaning tolerance) x := by
  unfold decimal
  by_cases integer : x.den = 1
  · refine ⟨⟨x.num, 0⟩, if_pos integer, Nat.zero_le _, ?_⟩
    rw [displayed_of_den_eq_one integer]
    simpa [Decimal.value] using (Rat.den_eq_one_iff x).mp integer
  · rw [if_neg integer, displayed]
    simp only [Binary64.ratAbs_eq]
    split_ifs with near
    · exact ⟨⟨halfEven x, 0⟩, rfl, Nat.zero_le _, by simp [Decimal.value]⟩
    · exact ⟨_, roundTo_eq (below integer) few, le_rfl, rfl⟩

/-- Showing a finite double gives the text of a decimal that denotes the displayed number. -/
theorem exists_decimal_of_isFinite {value : Float} (finite : value.isFinite = true) (few : places ≤ 15)
    (tolerance : Float) : ∃ exact shown, meaning value = .number exact ∧
      text value places tolerance = .ok (Decimal.text shown) ∧ shown.places ≤ places ∧
      shown.value = displayed places (meaning tolerance) exact := by
  obtain ⟨exact, stands, below⟩ := Binary64.meaning_of_isFinite finite
  obtain ⟨shown, success, short, same⟩ := decimal_eq_displayed tolerance below few
  refine ⟨exact, shown, stands, ?_, short, same⟩
  rw [text, stands]
  simp only [success]
  rfl

/-- A finite double is shown as a canonical text that is rounded correctly and can be read again. -/
theorem exists_canonical_text {value : Float} (finite : value.isFinite = true) (few : places ≤ 15)
    (tolerance : Float) : ∃ exact shown, meaning value = .number exact ∧
      text value places tolerance = .ok shown ∧ IsCanonicalText places shown ∧
      Shows places (meaning tolerance) exact (Literal.denoted shown) ∧
      ∃ read, scan shown = [⟨.number read false, 0, shown.length⟩] := by
  obtain ⟨exact, shown, stands, success, short, same⟩ :=
    exists_decimal_of_isFinite finite few tolerance
  refine ⟨exact, shown.text, stands, success, shown.isCanonicalText_text.mono short, ?_,
    shown.reading, shown.scan_text⟩
  rw [shown.denoted_text, same]
  exact shows_displayed places _ exact

/-- A tie is rounded away from zero, also below it. -/
theorem exists_canonical_text_negative : (-2.25 : Float).isFinite = true ∧ 1 ≤ 15 ∧
    text (-2.25) 1 Settings.defaultTolerance = .ok "-2.3".toList ∧
    IsCanonicalText 1 "-2.3".toList ∧
    Shows 1 (meaning Settings.defaultTolerance) (-9 / 4) (Literal.denoted "-2.3".toList) ∧
    ∃ read, scan "-2.3".toList = [⟨.number read false, 0, 4⟩] := by
  have finite : (-2.25 : Float).isFinite = true := by decide +kernel
  have value : meaning (-2.25) = .number (-9 / 4) := by decide +kernel
  have success : text (-2.25) (1 : Nat) Settings.defaultTolerance = .ok "-2.3".toList := by
    decide +kernel
  obtain ⟨exact, shown, stands, shows, canonical, rounded, read⟩ :=
    exists_canonical_text finite (by decide : 1 ≤ 15) Settings.defaultTolerance
  obtain rfl := Meaning.number.inj (value.symm.trans stands)
  obtain rfl := Except.ok.inj (success.symm.trans shows)
  exact ⟨finite, by decide, success, canonical, rounded, read⟩

/-! ### Order -/

theorem inPlaces_mono (places : Nat) : Monotone (inPlaces places) := by
  intro x y le
  have scaled : x * 10 ^ places ≤ y * 10 ^ places := by gcongr
  have units : (halfAway (x * 10 ^ places) : Rat) ≤ halfAway (y * 10 ^ places) := by
    exact_mod_cast Rounding.halfAway_mono scaled
  unfold inPlaces
  gcongr

/-- Decimal places do not take a value across an integer. -/
theorem inPlaces_side {n : Int} : (n ≤ x → n ≤ inPlaces places x) ∧
    (x ≤ n → inPlaces places x ≤ n) := by
  constructor
  · intro above
    have kept := inPlaces_mono places above
    rwa [inPlaces_intCast] at kept
  · intro below
    have kept := inPlaces_mono places below
    rwa [inPlaces_intCast] at kept

/-- What is nearer than something below the tolerance is below it as well. -/
theorem isBelow_of_le (le : x ≤ y) (below : isBelow y tolerance = true) :
    isBelow x tolerance = true := by
  cases tolerance with
  | number bound => exact decide_eq_true (le.trans_lt (of_decide_eq_true below))
  | infinity negative => exact below
  | notANumber => cases below

section Seams

variable (le : x ≤ y)
include le

private theorem halfEven_le_inPlaces (near : isBelow |x - halfEven x| tolerance = true)
    (far : ¬ isBelow |y - halfEven y| tolerance = true) : (halfEven x : Rat) ≤ inPlaces places y := by
  rcases le_or_gt (halfEven x : Rat) y with above | between
  · exact inPlaces_side.1 above
  · -- Otherwise both have this nearest integer, and the upper one is nearer to it.
    have upper : halfEven y ≤ halfEven x := by
      have kept := Rounding.halfEven_mono between.le
      rwa [Rounding.halfEven_intCast] at kept
    have same : halfEven y = halfEven x := le_antisymm upper (Rounding.halfEven_mono le)
    refine absurd (isBelow_of_le ?_ near) far
    rw [same, abs_of_neg (sub_neg.mpr between), abs_of_neg (sub_neg.mpr (le.trans_lt between))]
    linarith

private theorem inPlaces_le_halfEven (near : isBelow |y - halfEven y| tolerance = true)
    (far : ¬ isBelow |x - halfEven x| tolerance = true) : inPlaces places x ≤ (halfEven y : Rat) := by
  rcases le_or_gt x (halfEven y : Rat) with below | between
  · exact inPlaces_side.2 below
  · have lower : halfEven y ≤ halfEven x := by
      have kept := Rounding.halfEven_mono between.le
      rwa [Rounding.halfEven_intCast] at kept
    have same : halfEven x = halfEven y := le_antisymm (Rounding.halfEven_mono le) lower
    refine absurd (isBelow_of_le ?_ near) far
    rw [same, abs_of_pos (sub_pos.mpr between), abs_of_pos (sub_pos.mpr (between.trans_le le))]
    linarith

end Seams

/-- Values are shown in their order. -/
theorem displayed_mono (places : Nat) (tolerance : Meaning) :
    Monotone (displayed places tolerance) := by
  intro x y le
  unfold displayed
  split_ifs with lower upper upper
  · exact_mod_cast Rounding.halfEven_mono le
  · exact halfEven_le_inPlaces le lower upper
  · exact inPlaces_le_halfEven le upper lower
  · exact inPlaces_mono places le

/-- The text of the smaller of two doubles never denotes the larger number. -/
theorem text_mono {small large : Float} (finite : small.isFinite = true ∧ large.isFinite = true)
    (le : small ≤ large) (few : places ≤ 15) (tolerance : Float) : ∃ lower upper,
      text small places tolerance = .ok lower ∧ text large places tolerance = .ok upper ∧
      Literal.denoted lower ≤ Literal.denoted upper := by
  obtain ⟨x, lower, first, successLower, -, valueLower⟩ :=
    exists_decimal_of_isFinite finite.1 few tolerance
  obtain ⟨y, upper, second, successUpper, -, valueUpper⟩ :=
    exists_decimal_of_isFinite finite.2 few tolerance
  refine ⟨lower.text, upper.text, successLower, successUpper, ?_⟩
  rw [lower.denoted_text, upper.denoted_text, valueLower, valueUpper]
  exact displayed_mono places _ ((Binary64.le_iff first second).mp le)

/-- Both are shown as two: the first is rounded to it, the second is taken for it. -/
theorem text_mono_below_two : ((1.996 : Float).isFinite = true ∧ (1.9999999999 : Float).isFinite = true) ∧
    (1.996 : Float) ≤ 1.9999999999 ∧ 2 ≤ 15 ∧ ∃ lower upper,
      text 1.996 (2 : Nat) Settings.defaultTolerance = .ok lower ∧
      text 1.9999999999 (2 : Nat) Settings.defaultTolerance = .ok upper ∧
      Literal.denoted lower ≤ Literal.denoted upper := by
  have finite : (1.996 : Float).isFinite = true ∧ (1.9999999999 : Float).isFinite = true := by
    decide +kernel
  have le : (1.996 : Float) ≤ 1.9999999999 := by decide +kernel
  exact ⟨finite, le, by decide, text_mono finite le (by decide) Settings.defaultTolerance⟩

end Calculator.Result
