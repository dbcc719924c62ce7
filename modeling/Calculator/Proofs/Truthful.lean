import Calculator.Proofs.Balance
import Calculator.Proofs.Written

/-! # What an error tells about the text

The scanner reads only what evaluation knows, and the passes behind it add nothing else; so no text is
refused because of what a symbol stands for. A text is called empty only if nothing is scanned in it, and
numbers come into evaluation from numerals alone: the percent signs behind a numeral and the sign before it
leave the question open whether it is too large.
-/

namespace Calculator

variable {text : Text}

/-- A number of the text, with or without a sign, is too large for a finite double. -/
def HasLargeNumber (text : Text) : Prop :=
  ∃ span ∈ scan text, ∃ (negative : Bool) (numeral : Numeral),
    span.slice text = Operand.signed negative numeral.spelling ∧
      Binary64.overflowThreshold ≤ numeral.decimal.value

/-- A numeral below the threshold is read as a finite double. -/
theorem Numeral.isFinite_value {numeral : Numeral}
    (small : numeral.decimal.value < Binary64.overflowThreshold) : numeral.value.isFinite = true := by
  have nonneg : 0 ≤ numeral.decimal.value := by
    unfold Decimal.value Literal.decimal
    positivity
  exact Binary64.isFinite_nearest ((abs_of_nonneg nonneg).trans_lt small)

/-- What spells a number without being too large spells a finite one. -/
theorem Spells.isFinite {slice : Text} {x : Float} {marked : Bool}
    (spells : Spells slice (.number x marked))
    (small : ∀ (negative : Bool) (numeral : Numeral), slice = Operand.signed negative numeral.spelling →
      numeral.decimal.value < Binary64.overflowThreshold) : x.isFinite = true := by
  cases spells with
  | number numeral => exact Numeral.isFinite_value (small false numeral rfl)
  | negative numeral => exact Binary64.isFinite_neg (Numeral.isFinite_value (small true numeral rfl))
  | symbol named => cases named

/-- Without a number that is too large all numbers of the sequence are finite. -/
theorem isFinite_of_mem_writtenTokens (small : ¬ HasLargeNumber text) {x : Float} {marked : Bool}
    (member : .number x marked ∈ writtenTokens text) : x.isFinite = true := by
  obtain ⟨scannedMark, scanned⟩ := (written_of_mem member).exists_number
  obtain ⟨span, inside, number⟩ := List.mem_map.mp scanned
  obtain ⟨earlier, later, split⟩ := List.append_of_mem inside
  have spells := (reads_of_scan split).spells
  rw [number] at spells
  refine spells.isFinite fun negative numeral spelled => ?_
  by_contra large
  exact small ⟨span, inside, negative, numeral, spelled, not_lt.mp large⟩

/-- A calculation fails only with kinds of error for which its tokens give a reason. -/
theorem Settings.calculate_avoids_of_excluded {kind : ErrorKind}
    (excluded : kind.Excluded (writtenTokens text)) (settings : Settings) :
    Avoids kind (settings.calculate text) := by
  refine Settings.calculate_avoids ?_
  rw [evaluate_eq]
  exact evaluateTokens_avoids_of_excluded excluded settings.mode

/-- The outcome of a calculation tells the truth about the text: every symbol is supported, the text is
called empty exactly if nothing is scanned in it, and a number is called invalid only where one is too
large. -/
structure Truthful (text : Text) (outcome : Except Failure Calculation) : Prop where
  supported : Avoids .unsupportedOperator outcome
  empty : FailsWith .emptyExpression outcome ↔ scan text = []
  large : FailsWith .invalidNumber outcome → HasLargeNumber text

/-- Calculations tell the truth about their texts, with any settings. -/
theorem truthful_calculate (settings : Settings) (text : Text) :
    Truthful text (settings.calculate text) := by
  refine ⟨?_, ⟨fun fails => ?_, fun nothing => ?_⟩, fun fails => ?_⟩
  · have supported : ErrorKind.unsupportedOperator.Excluded (writtenTokens text) := fun token member =>
      (written_of_mem member).isSupported fun _ => isSupported_of_mem_scan
    exact Settings.calculate_avoids_of_excluded supported settings
  · by_contra something
    have someToken : ErrorKind.emptyExpression.Excluded (writtenTokens text) :=
      mt writtenTokens_eq_nil_iff.mp something
    have avoids := Settings.calculate_avoids_of_excluded someToken settings
    exact Avoids.iff_not_failsWith.mp avoids fails
  · have evaluated : evaluate settings.mode text = .error (.reported .emptyExpression) := by
      rw [evaluate_eq, writtenTokens_eq_nil_iff.mpr nothing, evaluateTokens_nil]
    exact ⟨_, by rw [Settings.calculate, evaluated]; rfl, rfl⟩
  · by_contra small
    have finite : ErrorKind.invalidNumber.Excluded (writtenTokens text) := fun x marked member =>
      isFinite_of_mem_writtenTokens small member
    have avoids := Settings.calculate_avoids_of_excluded finite settings
    exact Avoids.iff_not_failsWith.mp avoids fails

end Calculator
