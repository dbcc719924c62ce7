import Calculator.Proofs.Evaluation.Stacks
import Calculator.Proofs.Number.Decimal
import Calculator.Proofs.Number.Nearest
import Calculator.Proofs.Product
import Calculator.Proofs.Scan.RoundTrip

/-! # Reading what is shown

The digits of a decimal spell its magnitude exactly, whatever zeros are left out. So its text evaluates to
the double nearest to the decimal itself.
-/

namespace Calculator

namespace Decimal

private theorem exists_trimZeros (text : Text) :
    ∃ count, text = trimZeros text ++ List.replicate count '0' := by
  have zeros : text.reverse.takeWhile (· == '0') =
      List.replicate (text.reverse.takeWhile (· == '0')).length '0' :=
    List.eq_replicate_iff.mpr ⟨rfl, fun c member => by
      simpa using List.all_eq_true.mp List.all_takeWhile c member⟩
  have split := congrArg List.reverse
    (List.takeWhile_append_dropWhile (p := (· == '0')) (l := text.reverse))
  rw [List.reverse_append, List.reverse_reverse, zeros, List.reverse_replicate] at split
  exact ⟨_, split.symm⟩

private theorem fraction_value (d : Decimal) :
    Nat.ofDigitChars 10 d.fractionDigits 0 * 10 ^ d.places =
      d.coefficient.natAbs % 10 ^ d.places * 10 ^ d.fractionDigits.length := by
  generalize rest : d.coefficient.natAbs % 10 ^ d.places = remainder
  generalize padded : (Nat.toDigits 10 remainder).leftpad d.places '0' = digits
  have fraction : d.fractionDigits = trimZeros digits := by
    rw [← padded, ← rest]
    rfl
  obtain ⟨count, split⟩ := exists_trimZeros digits
  rw [← fraction] at split
  have value : remainder = 10 ^ count * Nat.ofDigitChars 10 d.fractionDigits 0 := by
    have whole := congrArg (Nat.ofDigitChars 10 · 0) (padded.trans split)
    simpa [List.leftpad, Nat.ofDigitChars_append] using whole
  by_cases none : remainder = 0
  · have noFraction : Nat.ofDigitChars 10 d.fractionDigits 0 = 0 := by
      simpa [none] using value.symm
    rw [none, noFraction, Nat.zero_mul, Nat.zero_mul]
  · have below : remainder < 10 ^ d.places := rest ▸ Nat.mod_lt _ (by positivity)
    have places : 0 < d.places := by
      refine Nat.pos_of_ne_zero fun zero => none ?_
      rw [zero] at below
      omega
    have length : d.places = d.fractionDigits.length + count := by
      have short := (Nat.length_toDigits_le_iff (by decide : 1 < 10) places).mpr below
      have total := congrArg List.length (padded.trans split)
      rw [List.length_append, List.length_replicate, List.length_leftpad] at total
      omega
    rw [length, value, Nat.pow_add]
    ring

/-- The digits of a decimal spell its magnitude. -/
theorem value_numeral (d : Decimal) : d.numeral.decimal.value = |d.value| := by
  have fraction : (Nat.ofDigitChars 10 d.fractionDigits 0 : Rat) * 10 ^ d.places =
      (d.coefficient.natAbs % 10 ^ d.places : Nat) * 10 ^ d.fractionDigits.length := by
    exact_mod_cast fraction_value d
  have division : (10 : Rat) ^ d.places * (d.coefficient.natAbs / 10 ^ d.places : Nat) +
      (d.coefficient.natAbs % 10 ^ d.places : Nat) = d.coefficient.natAbs := by
    exact_mod_cast Nat.div_add_mod d.coefficient.natAbs (10 ^ d.places)
  have magnitude : |d.value| = (d.coefficient.natAbs : Rat) / 10 ^ d.places := by
    rw [value, abs_div, ← Int.cast_abs, Int.abs_eq_natAbs, Int.cast_natCast, abs_of_pos (by positivity)]
  have digits : Nat.ofDigitChars 10 (d.wholeDigits ++ d.fractionDigits) 0 =
      10 ^ d.fractionDigits.length * (d.coefficient.natAbs / 10 ^ d.places) +
        Nat.ofDigitChars 10 d.fractionDigits 0 := by
    rw [Nat.ofDigitChars_append, Nat.ofDigitChars_eq_ofDigitChars_zero, wholeDigits,
      Nat.ofDigitChars_ten_toDigits]
    rfl
  change ((Nat.ofDigitChars 10 (d.wholeDigits ++ d.fractionDigits) 0 : Int) : Rat) /
    10 ^ d.fractionDigits.length = |d.value|
  rw [magnitude, digits, ← division, div_eq_div_iff (by positivity) (by positivity)]
  generalize d.coefficient.natAbs / 10 ^ d.places = whole
  push_cast
  linear_combination fraction

/-- The double that the text of a decimal is read as. -/
def reading (d : Decimal) : Float :=
  if d.coefficient < 0 then -Binary64.nearest |d.value| else Binary64.nearest |d.value|

theorem value_neg_iff (d : Decimal) : d.value < 0 ↔ d.coefficient < 0 := by
  have positive : (0 : Rat) < 10 ^ d.places := by positivity
  rw [value, div_lt_iff₀ positive, zero_mul]
  exact Int.cast_lt_zero

/-- The reading of a decimal stands for the decimal, rounded once. -/
theorem meaning_reading (d : Decimal) (small : |d.value| < (2 : Rat) ^ (1024 : Int))
    (fits : |Binary64.rounded d.value| < (2 : Rat) ^ (1024 : Int)) :
    Binary64.meaning d.reading = .number (Binary64.rounded d.value) := by
  unfold reading
  split_ifs with negative
  · have magnitude : |d.value| = -d.value := abs_of_neg (d.value_neg_iff.mpr negative)
    have opposite : Binary64.rounded d.value = -Binary64.rounded |d.value| := by
      rw [magnitude, Binary64.rounded_neg, neg_neg]
    rw [opposite, abs_neg] at fits
    rw [opposite]
    exact Binary64.meaning_neg (Binary64.meaning_nearest (by rwa [abs_abs]) fits)
  · have magnitude : |d.value| = d.value := by
      rw [← d.value_neg_iff, not_lt] at negative
      exact abs_of_nonneg negative
    rw [magnitude]
    exact Binary64.meaning_nearest small fits

end Decimal

/-- A number evaluates to itself. -/
theorem evaluateTokens_number (mode : AngleMode) {x : Float} (finite : x.isFinite = true) :
    evaluateTokens mode [.number x false] = .ok x := by
  have pushed : Stacks.feed mode .empty (.number x false) = .ok ⟨[x], []⟩ := by
    rw [Stacks.feed, Stacks.pushNumber, Token.value, if_pos finite]
    rfl
  rw [evaluateTokens_eq (List.cons_ne_nil _ _), Stacks.after, substituteConstants_eq (by simp), ok_bind]
  change Stacks.feedAll mode .empty [.number x false] >>= Stacks.result mode = .ok x
  rw [Stacks.feedAll_singleton, pushed]
  rfl

namespace Decimal

/-- The text of a decimal is scanned as one number, its reading. -/
theorem scan_text (d : Decimal) : scan d.text = [⟨.number d.reading false, 0, d.text.length⟩] := by
  have literal : d.numeral.value = Binary64.nearest |d.value| := by rw [Literal.value, value_numeral]
  have alone (negative : Bool) : Lexeme.SeparatedFrom none [.number negative d.numeral] :=
    ⟨⟨rfl, fun _ => rfl⟩, trivial⟩
  obtain ⟨-, spelled⟩ := d.text_eq_signed
  by_cases negative : d.coefficient < 0
  · have spans := (Lexeme.spansFrom_spell_iff none 0 _).mpr (alone true)
    rw [decide_eq_true negative] at spelled
    rw [reading, if_pos negative, ← literal, spelled, scan]
    simpa [Lexeme.spell, Lexeme.spansFrom, Lexeme.spelling, Lexeme.token, Operand.signed] using spans
  · have spans := (Lexeme.spansFrom_spell_iff none 0 _).mpr (alone false)
    rw [decide_eq_false negative] at spelled
    rw [reading, if_neg negative, ← literal, spelled, scan]
    simpa [Lexeme.spell, Lexeme.spansFrom, Lexeme.spelling, Lexeme.token, Operand.signed] using spans

/-- The text of a decimal evaluates to its reading. -/
theorem evaluate_text (mode : AngleMode) {d : Decimal} (finite : d.reading.isFinite = true) :
    evaluate mode d.text = .ok d.reading := by
  rw [evaluate_eq, writtenTokens, tokenize, scan_text]
  exact evaluateTokens_number mode finite

end Decimal

end Calculator
