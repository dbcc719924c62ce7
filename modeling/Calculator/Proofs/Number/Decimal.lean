import Calculator.Engine
import Calculator.Proofs.Buffer.Operand
import Calculator.Proofs.Outcome

/-! # The text of a decimal is a numeral

The text that is shown for a result can be typed: a numeral, behind a minus sign if it is negative.
-/

namespace Calculator

namespace Decimal

theorem mem_of_mem_trimZeros {text : Text} {c : Char} (member : c ∈ trimZeros text) : c ∈ text := by
  rw [trimZeros, List.mem_reverse] at member
  exact List.mem_reverse.mp ((List.dropWhile_suffix _).subset member)

private theorem isDigit_of_mem_leftpad {length : Nat} {digits : Text}
    (digitsOnly : ∀ c ∈ digits, c.isDigit = true) :
    ∀ c ∈ digits.leftpad length '0', c.isDigit = true := by
  intro c member
  rcases List.mem_append.mp member with padding | inside
  · rw [List.eq_of_mem_replicate padding]
    rfl
  · exact digitsOnly c inside

private theorem isDigit_of_mem_toDigits (n : Nat) : ∀ c ∈ Nat.toDigits 10 n, c.isDigit = true :=
  fun _ member => Nat.isDigit_of_mem_toDigits (by decide) (by decide) member

/-- The digits that are shown for a decimal. -/
def numeral (d : Decimal) : Numeral where
  whole := d.wholeDigits
  fraction := d.fractionDigits
  whole_ne_nil := Nat.toDigits_ne_nil
  whole_digits := isDigit_of_mem_toDigits _
  fraction_digits c member :=
    isDigit_of_mem_leftpad (isDigit_of_mem_toDigits _) c (mem_of_mem_trimZeros member)

/-- The text of a decimal is an operand without parentheses. -/
theorem text_eq_signed (d : Decimal) : Operand.isUnsigned d.numeral.spelling = true ∧
    d.text = Operand.signed (decide (d.coefficient < 0)) d.numeral.spelling := by
  refine ⟨Operand.isUnsigned_iff.mpr ⟨d.numeral, .inl rfl⟩, ?_⟩
  simp only [Operand.signed, decide_eq_true_eq]
  rfl

end Decimal

/-- A calculation that succeeds shows a decimal. -/
theorem Settings.exists_text_of_calculate {settings : Settings} {expression : Text}
    {calculation : Calculation} (success : settings.calculate expression = .ok calculation) :
    ∃ shown : Decimal, calculation.text = shown.text := by
  obtain ⟨value, -, success⟩ := bind_eq_ok_iff.mp success
  obtain ⟨text, formatted, success⟩ := bind_eq_ok_iff.mp success
  cases success
  rw [Settings.resultText, Result.text] at formatted
  split at formatted
  · cases formatted
  · cases formatted
  · obtain ⟨shown, -, formatted⟩ := bind_eq_ok_iff.mp formatted
    cases formatted
    exact ⟨shown, rfl⟩

end Calculator
