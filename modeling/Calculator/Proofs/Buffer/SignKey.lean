import Calculator.Proofs.Buffer.Operation
import Calculator.Proofs.Number.Decimal

/-! # What the sign key does to a text

A minus sign at the very start is dropped. Otherwise the operand at the end is negated: behind the same
text, a negative operand appears without parentheses and an unsigned one with them. Pressed twice, the
key brings back an operand without sign and parentheses as it was, and in the other forms it settles
on one of the two that it writes itself.
-/

namespace Calculator

namespace Buffer

open Operand

variable {text before digits negated : Text}

theorem isPrefix_withoutFinalBreak (text : Text) : withoutFinalBreak text <+: text := by
  unfold withoutFinalBreak
  split
  · exact List.dropLast_prefix text
  · exact List.prefix_refl text

theorem withoutFinalBreak_eq_self (noBreak : '\n' ∉ text) : withoutFinalBreak text = text := by
  refine if_neg fun last => noBreak ?_
  exact List.mem_of_getLast? last

/-- The parentheses of an operand are balanced, so a text in front of it lacks what it lacked. -/
theorem balanceParentheses_append_written (before : Text) (unsigned : isUnsigned digits = true)
    (wrapped negative : Bool) :
    balanceParentheses (before ++ written wrapped negative digits) =
      before ++ written wrapped negative digits ++
        List.replicate (before.count '(' - before.count ')') ')' := by
  rw [balanceParentheses, List.count_append, List.count_append,
    count_opening_written unsigned wrapped negative, Nat.add_sub_add_right]

/-- An operand has no parenthesis to supply. -/
theorem balanceParentheses_written (unsigned : isUnsigned digits = true) (wrapped negative : Bool) :
    balanceParentheses (written wrapped negative digits) = written wrapped negative digits := by
  simpa using balanceParentheses_append_written [] unsigned wrapped negative

/-- The search finds an operand in one of its four forms. -/
theorem exists_written_of_split? {operand : Text} (found : split? text = some (before, operand)) :
    ∃ wrapped negative digits, isUnsigned digits = true ∧
      operand = written wrapped negative digits :=
  isOperand_iff.mp (atEnd_of_split? found).isOperand

/-- The text of a result is an operand without parentheses. -/
theorem exists_written_of_calculate {settings : Settings} {expression : Text}
    {calculation : Calculation} (success : settings.calculate expression = .ok calculation) :
    ∃ negative digits, isUnsigned digits = true ∧
      calculation.text = written false negative digits := by
  obtain ⟨shown, same⟩ := Settings.exists_text_of_calculate success
  obtain ⟨unsigned, text⟩ := shown.text_eq_signed
  exact ⟨_, _, unsigned, same.trans text⟩

theorem text_toggleSign {buffer : Buffer} (pressed : negated? buffer.text = some negated) :
    buffer.toggleSign.text = negated := by
  rw [toggleSign_eq, pressed]
  rfl

/-- The two ways in which the sign key changes a text. -/
theorem negated?_cases (found : negated? text = some negated) :
    text = '-' :: negated ∨ text.head? ≠ some '-' ∧ ∃ before wrapped negative digits,
      isUnsigned digits = true ∧
        split? (withoutFinalBreak text) = some (before, written wrapped negative digits) ∧
          negated = before ++ written (!negative) (!negative) digits := by
  by_cases minus : text.head? = some '-'
  · obtain ⟨rest, rfl⟩ := List.head?_eq_some_iff.mp minus
    cases found
    exact .inl rfl
  · rw [negated?_of_ne minus, negateLast?] at found
    obtain ⟨⟨before, operand⟩, split, rfl⟩ := Option.map_eq_some_iff.mp found
    obtain ⟨wrapped, negative, digits, unsigned, rfl⟩ := exists_written_of_split? split
    refine .inr ⟨minus, before, wrapped, negative, digits, unsigned, split, ?_⟩
    exact congrArg (before ++ ·) (negate_written wrapped negative unsigned)

/-- An operand that is found is negated in its place. -/
theorem negated?_eq_some {wrapped negative : Bool} (noMinus : text.head? ≠ some '-')
    (noBreak : '\n' ∉ text) (unsigned : isUnsigned digits = true)
    (found : split? text = some (before, written wrapped negative digits)) :
    negated? text = some (before ++ written (!negative) (!negative) digits) := by
  rw [negated?_of_ne noMinus, negateLast?, withoutFinalBreak_eq_self noBreak, found]
  exact congrArg (fun operand => some (before ++ operand)) (negate_written wrapped negative unsigned)

/-- Behind the text an unsigned numeral is neither the end of a longer one nor the rest of a negative
one. -/
structure EndsNumerals (before : Text) : Prop where
  noRun : before.getLast?.any isNumeralCharacter = false
  noSign : ∀ front, before = front ++ ['-'] → endsWithSign front = false

section Twice

variable (unsigned : isUnsigned digits = true)
include unsigned

private theorem head?_append_written (negative : Bool) (noMinus : before.head? ≠ some '-') :
    (before ++ written negative negative digits).head? ≠ some '-' := by
  cases before with
  | nil =>
    cases negative with
    | true => simp [written]
    | false =>
      obtain ⟨c, rest, rfl, digit⟩ := exists_cons_of_isUnsigned unsigned
      have other : c ≠ '-' := ne_of_isDigit digit rfl
      simpa [written, signed] using other
  | cons c rest => simpa using noMinus

private theorem notMem_append_written (negative : Bool) (noBreak : '\n' ∉ before) :
    '\n' ∉ before ++ written negative negative digits := by
  have noDigit : '\n' ∉ digits := notMem_of_isUnsigned unsigned (by decide)
  cases negative <;> simp [written, signed, noBreak, noDigit]

/-- Pressed twice, the sign key leaves a negative operand in parentheses and any other one without
them. -/
theorem negated?_negated? {wrapped negative : Bool} (noMinus : text.head? ≠ some '-')
    (noBreak : '\n' ∉ text) (found : split? text = some (before, written wrapped negative digits))
    (ends : negative = true → EndsNumerals before) :
    negated? text >>= negated? = some (before ++ written negative negative digits) := by
  obtain ⟨split, -⟩ := atEnd_of_split? found
  have noMinusBefore : before.head? ≠ some '-' := by
    intro minus
    refine noMinus ?_
    rw [← split, List.head?_append, minus]
    rfl
  have noBreakBefore : '\n' ∉ before := fun member =>
    noBreak (split ▸ List.mem_append_left _ member)
  have again : split? (before ++ written (!negative) (!negative) digits) =
      some (before, written (!negative) (!negative) digits) := by
    cases negative with
    | false => exact split?_append_written unsigned true
    | true =>
      obtain ⟨noRun, noSign⟩ := ends rfl
      exact split?_append_unsigned unsigned noBreakBefore noRun noSign
  rw [negated?_eq_some noMinus noBreak unsigned found]
  have pressed := negated?_eq_some (head?_append_written unsigned _ noMinusBefore)
    (notMem_append_written unsigned _ noBreakBefore) unsigned again
  rw [Bool.not_not] at pressed
  exact pressed

end Twice

end Buffer

end Calculator
