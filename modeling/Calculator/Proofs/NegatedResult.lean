import Calculator.Proofs.Formatting.Rounded
import Calculator.Proofs.Grouping
import Calculator.Proofs.LastNumber
import Calculator.Proofs.Recalculation

/-! # The sign key on a result

The text of a result is a numeral, with a minus sign if it is below zero. The sign key takes the minus sign
away, or it puts the numeral with a minus sign in parentheses. In both cases the digits stay, and their double
is found before it gets its sign, so the value is the opposite double. Of zero this is minus zero.
-/

namespace Calculator

open Operand

variable {settings : Settings} {digits : Text} {negative : Bool}

section Numeral

variable (unsigned : isUnsigned digits = true)
include unsigned

/-- An operand evaluates to the value of its number, with or without parentheses. -/
theorem evaluate_written (mode : AngleMode) (wrapped : Bool)
    (finite : (token negative digits).value.isFinite = true) :
    evaluate mode (written wrapped negative digits) = .ok (token negative digits).value := by
  have scanned : (scan (signed negative digits)).map Span.token = [token negative digits] := by
    have allowed : negative = true → Scan.signAllowed none = true := fun _ => rfl
    obtain ⟨length, spans⟩ := exists_spansFrom_signed_alone unsigned allowed 0
    rw [scan, spans]
    rfl
  have alone : evaluateTokens mode (writtenTokens (signed negative digits)) =
      .ok (token negative digits).value := by
    rw [writtenTokens, tokenize, scanned]
    exact evaluateTokens_number mode finite
  rw [evaluate_eq]
  cases wrapped with
  | false => exact alone
  | true =>
    have ends : (lastToken? (signed negative digits)).any Token.isFunction = false := by
      rw [lastToken?, scanned]
      rfl
    change evaluateTokens mode (writtenTokens (parenthesized (signed negative digits))) = _
    rw [writtenTokens_group ends]
    exact evaluateTokens_grouped alone

/-- On a numeral alone the sign key takes a minus sign away, or it adds one with parentheses. -/
theorem negated?_signed_alone (negative : Bool) :
    Buffer.negated? (signed negative digits) = some (written (!negative) (!negative) digits) := by
  cases negative with
  | true => rfl
  | false =>
    have noMinus : digits.head? ≠ some '-' := by
      obtain ⟨c, rest, rfl, digit⟩ := exists_cons_of_isUnsigned unsigned
      simpa using ne_of_isDigit digit rfl
    have noBreak : '\n' ∉ digits := notMem_of_isUnsigned unsigned (by decide)
    have found : split? ([] ++ digits) = some ([], written false false digits) :=
      split?_append_longest unsigned List.not_mem_nil
        (fun more nonempty inside => absurd (List.suffix_nil.mp inside) nonempty) (by simp)
    exact Buffer.negated?_eq_some noMinus noBreak unsigned found

end Numeral

/-- The number of the opposite sign has the opposite value. -/
theorem value_token_not (negative : Bool) (digits : Text) :
    (token (!negative) digits).value = -(token negative digits).value := by
  rw [← negated_token]
  rfl

/-- A buffer shows the value of its text, closed, if there is one. -/
theorem Buffer.exists_evaluate_of_ok {buffer : Buffer} {value : Float}
    (evaluated : Calculator.evaluate settings.mode (balanceParentheses buffer.text) = .ok value) :
    ∃ calculation, (buffer.evaluate settings).2 = .ok calculation ∧ calculation.value = value := by
  obtain ⟨shown, success⟩ := Settings.exists_calculate evaluated
  exact ⟨_, congrArg Prod.snd (buffer.evaluate_of_ok success), rfl⟩

/-- The sign key makes the value of a numeral alone the opposite double. -/
theorem exists_evaluate_toggleSign (unsigned : isUnsigned digits = true)
    (finite : (token negative digits).value.isFinite = true) {buffer : Buffer}
    (alone : buffer.text = signed negative digits) :
    ∃ negated, (buffer.toggleSign.evaluate settings).2 = .ok negated ∧
      negated.value = -(token negative digits).value := by
  have pressed : buffer.toggleSign.text = written (!negative) (!negative) digits := by
    refine Buffer.text_toggleSign ?_
    rw [alone]
    exact negated?_signed_alone unsigned negative
  apply Buffer.exists_evaluate_of_ok
  rw [pressed, Buffer.balanceParentheses_written unsigned, ← value_token_not]
  refine evaluate_written unsigned settings.mode _ ?_
  rw [value_token_not]
  exact Binary64.isFinite_neg finite

/-- The text of a result is that of a decimal that can be read again, with any settings. -/
theorem exists_decimal_of_calculate {expression : Text} {calculation : Calculation}
    (success : settings.calculate expression = .ok calculation) :
    ∃ d : Decimal, calculation.text = d.text ∧ d.reading.isFinite = true := by
  obtain ⟨-, finite, formatted⟩ := (settings.calculate_reports expression).ok_of_eq success
  have range := settings.precision_mem
  obtain ⟨places, same⟩ := Int.eq_ofNat_of_zero_le (by omega : 0 ≤ settings.precision)
  have few : places ≤ 15 := by omega
  obtain ⟨x, d, stands, shown, -, displays⟩ :=
    Result.exists_decimal_of_isFinite finite few settings.tolerance
  rw [Settings.resultText, same] at formatted
  have text := Except.ok.inj (formatted.symm.trans shown)
  refine ⟨d, text, Binary64.isFinite_of_meaning (Decimal.meaning_reading_of_near stands ?_ ?_)⟩
  · intro integer
    rw [displays, Result.displayed_of_den_eq_one integer]
  · rw [displays]
    exact Result.abs_displayed_sub_le places _ x

/-- The number that the text of a decimal is read as. -/
theorem Decimal.value_token (d : Decimal) :
    (token (decide (d.coefficient < 0)) d.numeral.spelling).value = d.reading := by
  have literal : (Literal.atStart d.numeral.spelling).value = Binary64.nearest |d.value| := by
    rw [d.numeral.atStart_spelling, Literal.value, d.value_numeral]
  rw [token, Token.value, literal, Decimal.reading]
  simp

/-- With any settings, the sign key and another evaluation turn a shown result into its opposite: the text of
the result evaluates to some double, and the text behind the sign key evaluates to this double with the other
sign, also where it is zero. -/
theorem negated_result (buffer : Buffer) {calculation : Calculation}
    (success : (buffer.evaluate settings).2 = .ok calculation) :
    let result := (buffer.evaluate settings).1
    ∃ w, evaluate settings.mode result.text = .ok w ∧
      ∃ negated, (result.toggleSign.evaluate settings).2 = .ok negated ∧ negated.value = -w := by
  intro result
  cases outcome : settings.calculate (balanceParentheses buffer.text) with
  | error failure =>
    rw [buffer.evaluate_of_error outcome] at success
    cases success
  | ok calculation =>
    obtain ⟨d, text, finite⟩ := exists_decimal_of_calculate outcome
    obtain ⟨unsigned, spelled⟩ := d.text_eq_signed
    have shown : result.text = d.text := by
      rw [← text]
      exact congrArg (fun pair => pair.1.text) (buffer.evaluate_of_ok outcome)
    rw [← d.value_token] at finite
    refine ⟨_, ?_, exists_evaluate_toggleSign unsigned finite (shown.trans spelled)⟩
    rw [shown, spelled]
    exact evaluate_written unsigned settings.mode false finite

/-- The result `0` of `1-1` becomes minus zero, which is another double. -/
theorem negated_result_zero :
    ((Buffer.ofText "1-1".toList).evaluate .standard).2 = .ok ⟨"1-1".toList, 0, "0".toList⟩ ∧
      ((Buffer.ofText "1-1".toList).evaluate .standard).1.toggleSign.text = "(-0)".toList ∧
      evaluate .radians "0".toList = .ok 0 ∧
      ∃ negated, (((Buffer.ofText "1-1".toList).evaluate .standard).1.toggleSign.evaluate .standard).2 =
        .ok negated ∧ negated.value = -0 ∧ negated.value ≠ 0 := by
  have success : ((Buffer.ofText "1-1".toList).evaluate .standard).2 =
      .ok ⟨"1-1".toList, 0, "0".toList⟩ := by decide +kernel
  have zero : evaluate .radians "0".toList = .ok 0 := by decide +kernel
  have shown : ((Buffer.ofText "1-1".toList).evaluate .standard).1.text = "0".toList := by decide +kernel
  obtain ⟨w, evaluated, negated, again, value⟩ := negated_result (Buffer.ofText "1-1".toList) success
  rw [shown] at evaluated
  obtain rfl := Except.ok.inj (zero.symm.trans evaluated)
  have other : (-0 : Float) ≠ 0 := by decide +kernel
  exact ⟨success, by decide +kernel, zero, negated, again, value, value ▸ other⟩

end Calculator
