import Calculator.Proofs.Buffer.Operation

/-! # Operations that are refused

An edit that makes no sense leaves the buffer as it was, and so does an evaluation that fails. There is
one exception: before the input of the digit keys is looked at, a shown result is discarded.
-/

namespace Calculator

namespace Buffer

/-- What an operation is refused for. One line break at the very end hides no operand. -/
inductive Refused (buffer : Buffer) : Operation → Prop
  | unknownInput {input : Text} (noPoint : input ≠ ['.'])
      (noDigit : ∀ c, c.isDigit = true → input ≠ [c]) : Refused buffer (.digitOrPoint input)
  | secondPoint (hidden : buffer.showingResult = false) (point : '.' ∈ currentOperand buffer.text) :
      Refused buffer (.digitOrPoint ['.'])
  | noOperandBefore (empty : buffer.text = []) (symbol : Text) : Refused buffer (.operator symbol)
  | noAddition : Refused buffer (.insert [])
  | nothingToTakeBack (empty : buffer.text = []) : Refused buffer .backspace
  | nothingToNegate (empty : buffer.text = []) : Refused buffer .toggleSign
  | noOperandAtEnd (noMinus : buffer.text.head? ≠ some '-')
      (noOperand : ∀ front back, ¬ Operand.AtEnd (Operand.withoutFinalBreak buffer.text) front back) :
      Refused buffer .toggleSign
  | failure {settings : Settings} {failure : Failure}
      (fails : (buffer.evaluate settings).2 = .error failure) : Refused buffer (.evaluate settings)

/-- A result is discarded for an input of the digit keys. -/
def DiscardsResult (buffer : Buffer) (operation : Operation) : Prop :=
  buffer.showingResult = true ∧ buffer.text ≠ [] ∧ ∃ input, operation = .digitOrPoint input

variable {buffer : Buffer} {operation : Operation}

theorem not_discardsResult (other : ∀ input, operation ≠ .digitOrPoint input) :
    ¬ DiscardsResult buffer operation := by
  rintro ⟨-, -, input, same⟩
  exact other input same

/-- A refused operation does at the most discard a shown result. -/
theorem apply_of_refused (refused : Refused buffer operation) :
    buffer.apply operation = buffer ∧ (∀ input, operation ≠ .digitOrPoint input) ∨
      buffer.apply operation = { buffer with text := buffer.typedText } ∧
        ∃ input, operation = .digitOrPoint input := by
  have becomes := buffer.becomes_apply operation
  generalize buffer.apply operation = after at becomes
  cases becomes with
  | unchanged other => exact .inl ⟨rfl, other⟩
  | discarded => exact .inr ⟨rfl, _, rfl⟩
  | digit digit =>
    cases refused with
    | unknownInput noPoint noDigit => exact absurd rfl (noDigit _ digit)
    | secondPoint hidden point => cases digit
  | point first =>
    cases refused with
    | unknownInput noPoint noDigit => exact absurd rfl noPoint
    | secondPoint hidden point =>
      rw [typedText, hidden] at first
      exact absurd point first
  | operator someText =>
    cases refused with
    | noOperandBefore empty => exact absurd empty someText
  | inserted nonempty =>
    cases refused with
    | noAddition => exact absurd rfl nonempty
  | percent => cases refused
  | cleared => cases refused
  | backspaced someText front =>
    cases refused with
    | nothingToTakeBack empty => exact absurd empty someText
  | negated found =>
    cases refused with
    | nothingToNegate empty => exact absurd empty (text_ne_nil_of_negated? found)
    | noOperandAtEnd noMinus noOperand =>
      rw [negated?_of_ne noMinus, Operand.negateLast?, Operand.split?_eq_none_iff.mpr noOperand] at found
      cases found
  | evaluated success =>
    cases refused with
    | failure fails =>
      rw [buffer.evaluate_of_ok success] at fails
      cases fails

/-- A refused operation leaves the text, the state and the mark of a shown result as they are, unless it
is an input of the digit keys next to a result. Then the text is lost, and nothing else changes. -/
theorem refused_unchanged_iff (buffer : Buffer) (operation : Operation)
    (refused : Refused buffer operation) :
    (buffer.apply operation = buffer ↔ ¬ DiscardsResult buffer operation) ∧
      (DiscardsResult buffer operation → buffer.apply operation = { buffer with text := [] }) := by
  rcases apply_of_refused refused with ⟨after, other⟩ | ⟨after, input⟩
  · have kept : ¬ DiscardsResult buffer operation := not_discardsResult other
    exact ⟨iff_of_true after kept, fun discards => absurd discards kept⟩
  · rw [after, typedText, DiscardsResult]
    obtain ⟨text, state, showing⟩ := buffer
    cases showing with
    | false => simp
    | true => simp [input, eq_comm]

/-- A second point in `1.5`, and a letter next to the result `2`. -/
theorem refused_unchanged_iff_point :
    Refused (ofText "1.5".toList) (.digitOrPoint ['.']) ∧
      (ofText "1.5".toList).apply (.digitOrPoint ['.']) = ofText "1.5".toList ∧
      Refused ⟨['2'], .empty, true⟩ (.digitOrPoint ['a']) ∧
      (⟨['2'], .empty, true⟩ : Buffer).apply (.digitOrPoint ['a']) = ⟨[], .empty, true⟩ := by
  have point : Refused (ofText "1.5".toList) (.digitOrPoint ['.']) := .secondPoint rfl (by decide)
  have letter : Refused ⟨['2'], .empty, true⟩ (.digitOrPoint ['a']) := by
    refine .unknownInput (by decide) fun c digit same => ?_
    cases same
    cases digit
  refine ⟨point, ?_, letter, ?_⟩
  · refine (refused_unchanged_iff _ _ point).1.mpr ?_
    rintro ⟨showing, -⟩
    cases showing
  · exact (refused_unchanged_iff _ _ letter).2 ⟨rfl, List.cons_ne_nil _ _, _, rfl⟩

/-- A letter behind the evaluation of `2` is no digit, but the result is gone. -/
theorem result_lost_to_letter :
    [Operation.evaluate .standard].foldl apply (ofText ['2']) = ⟨['2'], .empty, true⟩ ∧
      [Operation.evaluate .standard, .digitOrPoint ['a']].foldl apply (ofText ['2']) =
        ⟨[], .empty, true⟩ := by
  constructor <;> decide +kernel

end Buffer

end Calculator
