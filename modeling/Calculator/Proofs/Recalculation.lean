import Calculator.Proofs.Balance
import Calculator.Proofs.Buffer.SignKey
import Calculator.Proofs.Settling

/-! # Calculating a result again

What is shown for a value is a text that can be calculated again. With the default settings this shows the
same text, except where a decimal 10⁻⁹ away from an integer leans to it: then the integer is shown. In
either case a third calculation changes nothing any more.
-/

namespace Calculator

open Binary64 (rounded meaning)

variable {settings : Settings} {v : Float} {x : Rat}

/-- A decimal that is equal to a double, or one half away from one with a fraction at most, is in the range of
doubles. -/
theorem Decimal.meaning_reading_of_near {d : Decimal} (stands : meaning v = .number x)
    (same : x.den = 1 → d.value = x) (near : |d.value - x| ≤ 1 / 2) :
    meaning d.reading = .number (rounded d.value) := by
  obtain ⟨own, small⟩ := Binary64.rounded_of_meaning stands
  by_cases integer : x.den = 1
  · apply Decimal.meaning_reading <;> rw [same integer]
    · exact small
    · rwa [own]
  · have below : |d.value| < 2 ^ 53 - 1 := by
      have below := Binary64.below_of_meaning stands integer
      have triangle := abs_sub_abs_le_abs_sub d.value x
      norm_num at below ⊢
      linarith
    have rounded_below : |rounded d.value| < 2 ^ 53 := by
      by_cases zero : d.value = 0
      · simp [zero, rounded]
      · have fine : Binary64.lastBit d.value ≤ 0 :=
          Binary64.lastBit_le zero (by norm_num) (by norm_num at below ⊢; linarith)
        have spacing : (2 : Rat) ^ Binary64.lastBit d.value ≤ 1 :=
          zpow_le_one_of_nonpos₀ (by norm_num) fine
        have close := Binary64.abs_rounded_sub_le d.value
        have triangle := abs_sub_abs_le_abs_sub (rounded d.value) d.value
        norm_num at below ⊢
        linarith
    have large : (2 : Rat) ^ 53 ≤ (2 : Rat) ^ (1024 : Int) :=
      zpow_le_zpow_right₀ (by norm_num) (by norm_num : (53 : Int) ≤ 1024)
    have less : (2 : Rat) ^ 53 - 1 ≤ (2 : Rat) ^ 53 := sub_le_self _ zero_le_one
    exact Decimal.meaning_reading _ (below.trans_le (less.trans large)) (rounded_below.trans_le large)

namespace Result

/-- What is shown for a number is at most one half away from it. -/
theorem abs_value_shown_sub_le (x : Rat) : |(shown x).value - x| ≤ 1 / 2 := by
  unfold shown
  split_ifs with integer
  · rw [Decimal.value_integer, Rat.coe_int_num_of_den_eq_one integer]
    norm_num
  · rw [Decimal.value_integer]
    exact Rounding.abs_halfEven_sub_le x
  · exact (abs_value_halfAway_sub_le 10 x).trans (by norm_num)

/-- The decimal that is shown for a double is in the range of doubles. -/
theorem meaning_reading_shown (stands : meaning v = .number x) :
    meaning (shown x).reading = .number (rounded (shown x).value) := by
  refine Decimal.meaning_reading_of_near stands (fun integer => ?_) (abs_value_shown_sub_le x)
  rw [shown, if_pos integer, Decimal.value_integer, Rat.coe_int_num_of_den_eq_one integer]

end Result

namespace Decimal

variable {d : Decimal}

/-- Decimals with the same text are equal numbers. -/
theorem value_eq_of_text_eq {other : Decimal} (same : d.text = other.text) : d.value = other.value := by
  obtain ⟨unsigned, text⟩ := d.text_eq_signed
  obtain ⟨unsignedOther, textOther⟩ := other.text_eq_signed
  rw [text, textOther] at same
  obtain ⟨sign, digits⟩ := Operand.signed_inj unsigned unsignedOther same
  have literal := congrArg Literal.atStart digits
  rw [Numeral.atStart_spelling, Numeral.atStart_spelling] at literal
  have magnitude : |d.value| = |other.value| := by rw [← value_numeral, ← value_numeral, literal]
  have signs : d.value < 0 ↔ other.value < 0 := by
    rw [value_neg_iff, value_neg_iff]
    exact decide_eq_decide.mp sign
  by_cases negative : d.value < 0
  · rw [abs_of_neg negative, abs_of_neg (signs.mp negative)] at magnitude
    exact neg_inj.mp magnitude
  · have nonneg := not_lt.mp negative
    have otherNonneg := not_lt.mp (mt signs.mpr negative)
    rwa [abs_of_nonneg nonneg, abs_of_nonneg otherNonneg] at magnitude

theorem balanceParentheses_text (d : Decimal) : balanceParentheses d.text = d.text := by
  obtain ⟨unsigned, text⟩ := d.text_eq_signed
  rw [text]
  exact Buffer.balanceParentheses_written unsigned false _

/-- The text of a decimal settles to another one exactly if the decimal leans. -/
theorem text_settled_eq_iff (d : Decimal) : d.settled.text = d.text ↔ ¬ d.Leans := by
  constructor
  · intro same leans
    have value := value_eq_of_text_eq same
    rw [settled_of_leans leans, value_integer] at value
    have beside := leans.1
    rw [value, sub_self, abs_zero] at beside
    norm_num at beside
  · intro stands
    rw [settled_of_not_leans stands]

end Decimal

section Default

variable (precision : settings.precision = Settings.defaultPrecision)
  (tolerance : settings.tolerance = Settings.defaultTolerance)
include precision tolerance

/-- With the default settings a double is given the text of what is shown for its number. -/
theorem resultText_eq (stands : meaning v = .number x) :
    settings.resultText v = .ok (Result.shown x).text := by
  rw [Settings.resultText, precision, tolerance, Result.text, stands]
  simp only [Result.decimal_eq_shown (Binary64.below_of_meaning stands)]
  rfl

/-- The text that is shown for a double is calculated to the decimal that it settles to. -/
theorem calculate_shown (stands : meaning v = .number x) :
    settings.calculate (Result.shown x).text =
      .ok ⟨(Result.shown x).text, (Result.shown x).reading, (Result.shown x).settled.text⟩ := by
  have reads := Result.meaning_reading_shown stands
  have settles := Result.shown_rounded_shown (Binary64.rounded_of_meaning stands).1
    (Binary64.below_of_meaning stands)
  rw [Settings.calculate, Decimal.evaluate_text _ (Binary64.isFinite_of_meaning reads), ok_bind,
    resultText_eq precision tolerance reads, settles]
  rfl

/-- Once settled, a text is calculated to itself. -/
theorem calculate_settled (stands : meaning v = .number x) :
    ∃ value, settings.calculate (Result.shown x).settled.text =
      .ok ⟨(Result.shown x).settled.text, value, (Result.shown x).settled.text⟩ := by
  have reads := Result.meaning_reading_shown stands
  have settles := Result.shown_rounded_shown (Binary64.rounded_of_meaning stands).1
    (Binary64.below_of_meaning stands)
  have again := calculate_shown precision tolerance reads
  rw [settles, Decimal.settled_settled] at again
  exact ⟨_, again⟩

/-- The value of a calculation is shown as its text. -/
theorem exists_shown_of_calculate {expression : Text} {calculation : Calculation}
    (success : settings.calculate expression = .ok calculation) :
    ∃ x, meaning calculation.value = .number x ∧ calculation.text = (Result.shown x).text := by
  obtain ⟨-, finite, formatted⟩ := (settings.calculate_reports expression).ok_of_eq success
  obtain ⟨x, stands, -⟩ := Binary64.meaning_of_isFinite finite
  rw [resultText_eq precision tolerance stands] at formatted
  exact ⟨x, stands, (Except.ok.inj formatted).symm⟩

omit precision tolerance in
private theorem evaluate_ofDecimal {d other : Decimal} {value : Float}
    (calculated : settings.calculate d.text = .ok ⟨d.text, value, other.text⟩) (state : BufferState)
    (showing : Bool) : (⟨d.text, state, showing⟩ : Buffer).evaluate settings =
      (⟨other.text, .empty, true⟩, .ok ⟨d.text, value, other.text⟩) := by
  have success : settings.calculate (balanceParentheses (⟨d.text, state, showing⟩ : Buffer).text) =
      .ok ⟨d.text, value, other.text⟩ := by
    change settings.calculate (balanceParentheses d.text) = _
    rw [d.balanceParentheses_text]
    exact calculated
  exact Buffer.evaluate_of_ok _ success

/-- However often a shown result is evaluated, from the first time on it is what it settles to. -/
theorem evaluate_again (stands : meaning v = .number x) (state : BufferState) (showing : Bool)
    (count : Nat) :
    ∃ again, ((fun buffer => (Buffer.evaluate settings buffer).1)^[count]
        ⟨(Result.shown x).text, state, showing⟩).evaluate settings =
          (⟨(Result.shown x).settled.text, .empty, true⟩, .ok again) ∧
        again.text = (Result.shown x).settled.text := by
  induction count with
  | zero =>
    have first := evaluate_ofDecimal (calculate_shown precision tolerance stands) state showing
    exact ⟨_, first, rfl⟩
  | succ count ih =>
    obtain ⟨again, before, -⟩ := ih
    obtain ⟨value, calculated⟩ := calculate_settled precision tolerance stands
    have next := evaluate_ofDecimal calculated .empty true
    rw [Function.iterate_succ_apply', before]
    exact ⟨_, next, rfl⟩

/-- With the default settings the text that is shown for a finite double can be calculated, and this shows
what the decimal settles to: the same text, unless the decimal leans to an integer, and then this integer.
So from the second press of the equals key on, a shown result does not change any more. -/
theorem result_settles :
    (∀ v : Float, v.isFinite = true → ∃ shown : Decimal, settings.resultText v = .ok shown.text ∧
      (∃ again, settings.calculate shown.text = .ok again ∧ again.text = shown.settled.text) ∧
        (shown.settled.text = shown.text ↔ ¬ shown.Leans)) ∧
    ∀ (buffer : Buffer) (calculation : Calculation),
      (buffer.evaluate settings).2 = .ok calculation →
        ∃ shown : Decimal, calculation.text = shown.text ∧ ∀ count : Nat, ∃ again,
          ((fun buffer => (Buffer.evaluate settings buffer).1)^[count]
            (buffer.evaluate settings).1).evaluate settings =
              (⟨shown.settled.text, .empty, true⟩, .ok again) ∧
            again.text = shown.settled.text := by
  constructor
  · intro v finite
    obtain ⟨x, stands, -⟩ := Binary64.meaning_of_isFinite finite
    exact ⟨Result.shown x, resultText_eq precision tolerance stands,
      ⟨_, calculate_shown precision tolerance stands, rfl⟩, (Result.shown x).text_settled_eq_iff⟩
  · intro buffer calculation success
    cases outcome : settings.calculate (balanceParentheses buffer.text) with
    | error failure =>
      rw [buffer.evaluate_of_error outcome] at success
      cases success
    | ok first =>
      rw [buffer.evaluate_of_ok outcome] at success ⊢
      cases success
      obtain ⟨x, stands, same⟩ := exists_shown_of_calculate precision tolerance outcome
      rw [same]
      exact ⟨Result.shown x, rfl, evaluate_again precision tolerance stands .empty true⟩

end Default

/-- An eighth and its text, which stay as they are. -/
theorem result_settles_eighth :
    (0.125 : Float).isFinite = true ∧
      ((Buffer.ofText "1÷8".toList).evaluate .standard).2 =
        .ok ⟨"1÷8".toList, 0.125, "0.125".toList⟩ ∧
      (∃ shown : Decimal, Settings.standard.resultText 0.125 = .ok shown.text ∧
        (∃ again, Settings.standard.calculate shown.text = .ok again ∧
          again.text = shown.settled.text) ∧ (shown.settled.text = shown.text ↔ ¬ shown.Leans)) ∧
      ∃ shown : Decimal, "0.125".toList = shown.text ∧ ∀ count : Nat, ∃ again,
        ((fun buffer => (Buffer.evaluate .standard buffer).1)^[count]
          ((Buffer.ofText "1÷8".toList).evaluate .standard).1).evaluate .standard =
            (⟨shown.settled.text, .empty, true⟩, .ok again) ∧ again.text = shown.settled.text := by
  obtain ⟨values, buffers⟩ := @result_settles .standard rfl rfl
  have finite : (0.125 : Float).isFinite = true := by decide +kernel
  have success : ((Buffer.ofText "1÷8".toList).evaluate .standard).2 =
      .ok ⟨"1÷8".toList, 0.125, "0.125".toList⟩ := by decide +kernel
  exact ⟨finite, success, values _ finite, buffers _ _ success⟩

/-- The double `0.9999999989999999` is shown as `0.999999999`, and this is calculated to `1`. -/
theorem result_changes_once :
    (0.9999999989999999 : Float).isFinite = true ∧
      Settings.standard.resultText 0.9999999989999999 = .ok "0.999999999".toList ∧
        (Settings.standard.calculate "0.999999999".toList).map Calculation.text =
          .ok "1".toList := by
  decide +kernel

end Calculator
