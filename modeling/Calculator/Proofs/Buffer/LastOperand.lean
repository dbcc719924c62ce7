import Calculator.Proofs.Buffer.Pattern
import Calculator.Proofs.Buffer.SignKey

/-! # The rule for the last operand

The operand that the sign key takes is found by a search from the left, but it can be told without one: of the
operands at the end of the text it is the longest one, and if some of them stand directly behind an operator
sign, the longest one of these.
-/

namespace Calculator

open Operand

/-- The text ends with the operand, behind the text `before`. -/
structure EndsWithOperand (text before operand : Text) : Prop where
  split : before ++ operand = text
  form : operandPattern.Matches operand

/-- Some operand at the end of the text stands directly behind an operator sign. -/
def HasOperandBehindSign (text : Text) : Prop :=
  ∃ before operand, EndsWithOperand text before operand ∧ endsWithSign before = true

/-- The operand at the end of the text that is negated: the longest one behind an operator sign, or the longest
one if none stands behind an operator sign. -/
structure IsLastOperand (text before operand : Text) : Prop where
  ends : EndsWithOperand text before operand
  behindSign : HasOperandBehindSign text → endsWithSign before = true ∧
    ∀ front other, EndsWithOperand text front other → endsWithSign front = true →
      other.length ≤ operand.length
  longest : ¬ HasOperandBehindSign text →
    ∀ front other, EndsWithOperand text front other → other.length ≤ operand.length

variable {text before operand front other : Text}

theorem endsWithOperand_iff : EndsWithOperand text before operand ↔ AtEnd text before operand :=
  ⟨fun ends => ⟨ends.split, matches_operandPattern_iff.mp ends.form⟩,
    fun ends => ⟨ends.split, matches_operandPattern_iff.mpr ends.isOperand⟩⟩

private theorem length_le_of_prefix (ends : EndsWithOperand text before operand)
    (others : EndsWithOperand text front other) (shorter : before <+: front) :
    other.length ≤ operand.length := by
  have whole := congrArg List.length (ends.split.trans others.split.symm)
  have lengths := shorter.length_le
  simp only [List.length_append] at whole
  omega

/-- Only one operand is the last one. -/
theorem IsLastOperand.unique (last : IsLastOperand text before operand)
    (again : IsLastOperand text front other) : before = front ∧ operand = other := by
  refine List.append_inj' (last.ends.split.trans again.ends.split.symm) ?_
  by_cases signed : HasOperandBehindSign text
  · obtain ⟨sign, longest⟩ := last.behindSign signed
    obtain ⟨otherSign, otherLongest⟩ := again.behindSign signed
    exact Nat.le_antisymm (otherLongest _ _ last.ends sign) (longest _ _ again.ends otherSign)
  · exact Nat.le_antisymm (again.longest signed _ _ last.ends) (last.longest signed _ _ again.ends)

section Search

variable (noBreak : '\n' ∉ text)
include noBreak

private theorem isLastOperand_of_split? (found : split? text = some (before, operand)) :
    IsLastOperand text before operand := by
  have ends := endsWithOperand_iff.mpr (atEnd_of_split? found)
  refine ⟨ends, ?_, ?_⟩
  · rintro ⟨front, other, others, sign⟩
    refine ⟨(prefix_of_split? noBreak found (endsWithOperand_iff.mp others) sign).1, ?_⟩
    intro front other others sign
    exact length_le_of_prefix ends others
      (prefix_of_split? noBreak found (endsWithOperand_iff.mp others) sign).2
  · intro unsigned front other others
    rcases endsWithSign_or_longest found with sign | longest
    · exact absurd ⟨before, operand, ends, sign⟩ unsigned
    · exact length_le_of_prefix ends others (longest front other (endsWithOperand_iff.mp others))

/-- In a text on one line the search for the pattern finds the last operand. -/
theorem search_eq_some_iff : search text = some (before, operand) ↔ IsLastOperand text before operand := by
  rw [search_eq, Buffer.withoutFinalBreak_eq_self noBreak]
  refine ⟨isLastOperand_of_split? noBreak, fun last => ?_⟩
  cases found : split? text with
  | none => exact absurd (endsWithOperand_iff.mp last.ends) (split?_eq_none_iff.mp found before operand)
  | some pair =>
    obtain ⟨rfl, rfl⟩ := last.unique (isLastOperand_of_split? noBreak found)
    rfl

/-- The search finds nothing only if no operand ends the text. -/
theorem search_eq_none_iff :
    search text = none ↔ ∀ before operand, ¬ EndsWithOperand text before operand := by
  rw [search_eq, Buffer.withoutFinalBreak_eq_self noBreak, split?_eq_none_iff]
  simp only [endsWithOperand_iff]

end Search

namespace Buffer

/-- On a text on one line that does not start with a minus sign, the sign key follows the rule, and finds what
the search for the pattern finds. Without an operand at the end nothing changes. Otherwise the last operand is
negated behind the same text: its parentheses go, and then a minus sign goes or is put there in parentheses. -/
theorem toggleSign_last_operand (buffer : Buffer) (noMinus : buffer.text.head? ≠ some '-')
    (noBreak : '\n' ∉ buffer.text) :
    ((∀ before operand, ¬ EndsWithOperand buffer.text before operand) →
      search buffer.text = none ∧ buffer.toggleSign = buffer) ∧
    ((∃ before operand, EndsWithOperand buffer.text before operand) →
      ∃ before wrapped negative digits, isUnsigned digits = true ∧
        IsLastOperand buffer.text before (written wrapped negative digits) ∧
          search buffer.text = some (before, written wrapped negative digits) ∧
            buffer.toggleSign =
              ⟨before ++ written (!negative) (!negative) digits, buffer.state, false⟩) := by
  have searched : search buffer.text = split? buffer.text := by
    rw [search_eq, withoutFinalBreak_eq_self noBreak]
  cases found : split? buffer.text with
  | none =>
    rw [found] at searched
    refine ⟨fun _ => ⟨searched, ?_⟩, ?_⟩
    · rw [toggleSign_eq, negated?_of_ne noMinus, negateLast?, withoutFinalBreak_eq_self noBreak, found]
      rfl
    · rintro ⟨before, operand, ends⟩
      exact absurd ends ((search_eq_none_iff noBreak).mp searched before operand)
  | some pair =>
    obtain ⟨before, operand⟩ := pair
    obtain ⟨wrapped, negative, digits, unsigned, rfl⟩ := exists_written_of_split? found
    rw [found] at searched
    have last := (search_eq_some_iff noBreak).mp searched
    refine ⟨fun none => absurd last.ends (none _ _), fun _ => ?_⟩
    refine ⟨before, wrapped, negative, digits, unsigned, last, searched, ?_⟩
    have nonempty : before ++ written (!negative) (!negative) digits ≠ [] :=
      List.append_ne_nil_of_right_ne_nil before (written_ne_nil unsigned _ _)
    rw [toggleSign_eq, negated?_eq_some noMinus noBreak unsigned found]
    simp [shortened, nonempty]

/-- In `2x-30` two operands stand behind an operator sign, and the longer one of them, `-30`, loses its sign. -/
theorem toggleSign_last_operand_product :
    (ofText "2x-30".toList).text.head? ≠ some '-' ∧ '\n' ∉ (ofText "2x-30".toList).text ∧
      EndsWithOperand "2x-30".toList "2x-".toList "30".toList ∧
      IsLastOperand "2x-30".toList "2x".toList "-30".toList ∧
      (ofText "2x-30".toList).toggleSign = ⟨"2x30".toList, .filled, false⟩ := by
  have noMinus : (ofText "2x-30".toList).text.head? ≠ some '-' := by decide
  have noBreak : '\n' ∉ (ofText "2x-30".toList).text := by decide
  have ends : EndsWithOperand "2x-30".toList "2x-".toList "30".toList :=
    ⟨rfl, matches_operandPattern_iff.mpr (by decide)⟩
  have found : search "2x-30".toList = some ("2x".toList, "-30".toList) := by decide +kernel
  obtain ⟨before, wrapped, negative, digits, unsigned, last, searched, pressed⟩ :=
    (toggleSign_last_operand (ofText "2x-30".toList) noMinus noBreak).2 ⟨_, _, ends⟩
  obtain ⟨rfl, operand⟩ := Prod.mk.inj (Option.some.inj (found.symm.trans searched))
  rw [← operand] at last
  exact ⟨noMinus, noBreak, ends, last, by decide +kernel⟩

end Buffer

end Calculator
