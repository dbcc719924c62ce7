import Calculator.Buffer.Basic
import Calculator.Proofs.Buffer.Operand
import Calculator.Proofs.Outcome
import Calculator.Proofs.Run

/-! # Operations on a buffer

The operations as data, so that a run is a list of them. `Buffer.Becomes` lists all that an operation can
do to a buffer; laws of runs look at these cases and never at an operation.

The first such law is about the clear key: with nothing to take back it offers to clear all, and so it
does next to a shown result. The two edits that make a text shorter or negate it do not set the state
unless they empty the text, so behind a result the clear key goes on offering to clear all, until something
is typed, cleared or evaluated.
-/

namespace Calculator

namespace Buffer

/-- The operations on a buffer, with what they are given. -/
inductive Operation where
  | digitOrPoint (input : Text)
  | operator (symbol : Text)
  | insert (addition : Text)
  | percent
  | clear
  | backspace
  | toggleSign
  | evaluate (settings : Settings)

/-- Carries out an operation. -/
def apply (buffer : Buffer) : Operation → Buffer
  | .digitOrPoint input => buffer.appendDigitOrPoint input
  | .operator symbol => buffer.appendOperator symbol
  | .insert addition => buffer.appendText addition
  | .percent => buffer.appendPercent
  | .clear => buffer.clear
  | .backspace => buffer.backspace
  | .toggleSign => buffer.toggleSign
  | .evaluate settings => (buffer.evaluate settings).1

/-- The text that the next digit is typed behind. -/
def typedText (buffer : Buffer) : Text := if buffer.showingResult then [] else buffer.text

/-- What the point key types behind a text. -/
def pointBehind (text : Text) : Text := if (currentOperand text).isEmpty then ['0', '.'] else ['.']

/-- The text without an operator sign at its end. -/
def withoutSign (text : Text) : Text := if Operand.endsWithSign text then text.dropLast else text

/-- The text after the sign key, unless that changes nothing. -/
def negated? : Text → Option Text
  | '-' :: rest => some rest
  | text => Operand.negateLast? text

/-- What holds of the text and of no text holds of the one that digits are typed behind. -/
theorem law_typedText {law : Text → Prop} {buffer : Buffer} (empty : law [])
    (holds : law buffer.text) : law buffer.typedText := by
  unfold typedText
  split
  · exact empty
  · exact holds

theorem typedText_prefix (buffer : Buffer) : buffer.typedText <+: buffer.text := by
  unfold typedText
  split
  · exact List.nil_prefix
  · exact List.prefix_refl _

theorem withoutSign_prefix (text : Text) : withoutSign text <+: text := by
  unfold withoutSign
  split
  · exact List.dropLast_prefix text
  · exact List.prefix_refl text

/-- What can become of a buffer. An input that is neither a digit nor a point that can be typed discards
a shown result all the same. -/
inductive Becomes (buffer : Buffer) : Operation → Buffer → Prop
  | unchanged {operation : Operation} (other : ∀ input, operation ≠ .digitOrPoint input) :
      Becomes buffer operation buffer
  | discarded {input : Text} :
      Becomes buffer (.digitOrPoint input) { buffer with text := buffer.typedText }
  | digit {c : Char} (digit : c.isDigit = true) :
      Becomes buffer (.digitOrPoint [c]) (edited (buffer.typedText ++ [c]))
  | point (first : '.' ∉ currentOperand buffer.typedText) :
      Becomes buffer (.digitOrPoint ['.'])
        (edited (buffer.typedText ++ pointBehind buffer.typedText))
  | operator {symbol : Text} (someText : buffer.text ≠ []) :
      Becomes buffer (.operator symbol) (edited (withoutSign buffer.text ++ symbol))
  | inserted {addition : Text} (nonempty : addition ≠ []) :
      Becomes buffer (.insert addition) (edited (buffer.text ++ addition))
  | percent : Becomes buffer .percent (edited (buffer.text ++ ['%']))
  | cleared : Becomes buffer .clear (ofText [])
  | backspaced {text : Text} (someText : buffer.text ≠ []) (front : text <+: buffer.text) :
      Becomes buffer .backspace (buffer.shortened text)
  | negated {text : Text} (negated : negated? buffer.text = some text) :
      Becomes buffer .toggleSign (buffer.shortened text)
  | evaluated {settings : Settings} {calculation : Calculation}
      (success : settings.calculate (balanceParentheses buffer.text) = .ok calculation) :
      Becomes buffer (.evaluate settings) ⟨calculation.text, .empty, true⟩

section Becomes

variable (buffer : Buffer)

/-- A digit is typed behind the text, or in place of a result. -/
theorem appendDigitOrPoint_digit {c : Char} (digit : c.isDigit = true) :
    buffer.appendDigitOrPoint [c] = edited (buffer.typedText ++ [c]) := by
  have noPoint : c ≠ '.' := Operand.ne_of_isDigit digit rfl
  simp [appendDigitOrPoint, digit, typedText]

/-- The first point of an operand is typed, after a zero if it has no digits. -/
theorem appendDigitOrPoint_point (first : '.' ∉ currentOperand buffer.typedText) :
    buffer.appendDigitOrPoint ['.'] = edited (buffer.typedText ++ pointBehind buffer.typedText) :=
  if_neg fun contained => first (List.contains_iff_mem.mp contained)

/-- An operator takes the place of an operator sign at the end. -/
theorem appendOperator_eq (symbol : Text) (someText : buffer.text ≠ []) :
    buffer.appendOperator symbol = edited (withoutSign buffer.text ++ symbol) := by
  simp [appendOperator, withoutSign, Operand.endsWithSign, List.getLast?_eq_some_getLast someText]

theorem appendText_eq {addition : Text} (nonempty : addition ≠ []) :
    buffer.appendText addition = edited (buffer.text ++ addition) :=
  if_neg fun empty => nonempty (List.isEmpty_iff.mp empty)

private theorem becomes_appendDigitOrPoint (input : Text) :
    Becomes buffer (.digitOrPoint input) (buffer.appendDigitOrPoint input) := by
  match input with
  | [] => exact .discarded
  | [c] =>
    by_cases point : c = '.'
    · subst point
      by_cases second : '.' ∈ currentOperand buffer.typedText
      · have after : buffer.appendDigitOrPoint ['.'] = { buffer with text := buffer.typedText } :=
          if_pos (List.contains_iff_mem.mpr second)
        rw [after]
        exact .discarded
      · rw [buffer.appendDigitOrPoint_point second]
        exact .point second
    · by_cases digit : c.isDigit = true
      · rw [buffer.appendDigitOrPoint_digit digit]
        exact .digit digit
      · have after : buffer.appendDigitOrPoint [c] = { buffer with text := buffer.typedText } := by
          simp [appendDigitOrPoint, digit, typedText]
        rw [after]
        exact .discarded
  | first :: second :: rest =>
    have after : buffer.appendDigitOrPoint (first :: second :: rest) =
        { buffer with text := buffer.typedText } := by
      simp [appendDigitOrPoint, typedText]
    rw [after]
    exact .discarded

private theorem becomes_appendOperator (symbol : Text) :
    Becomes buffer (.operator symbol) (buffer.appendOperator symbol) := by
  by_cases someText : buffer.text = []
  · have after : buffer.appendOperator symbol = buffer := by simp [appendOperator, someText]
    rw [after]
    exact .unchanged (by simp)
  · rw [buffer.appendOperator_eq symbol someText]
    exact .operator someText

private theorem becomes_backspace : Becomes buffer .backspace buffer.backspace := by
  unfold backspace
  split
  · exact .unchanged (by simp)
  · next someText =>
    exact .backspaced (fun empty => someText (List.isEmpty_iff.mpr empty)) (List.take_prefix ..)

theorem negated?_of_ne {text : Text} (noMinus : text.head? ≠ some '-') :
    negated? text = Operand.negateLast? text := by
  unfold negated?
  split
  · exact absurd rfl noMinus
  · rfl

/-- The sign key writes the negated text if there is one, and else does nothing. -/
theorem toggleSign_eq :
    buffer.toggleSign = (negated? buffer.text).elim buffer fun text => buffer.shortened text := by
  unfold toggleSign
  split
  · next empty =>
    rw [empty]
    rfl
  · next minus =>
    rw [minus]
    rfl
  · next noText noMinus =>
    have noSign : buffer.text.head? ≠ some '-' := by
      cases text : buffer.text with
      | nil => simp
      | cons c rest =>
        rintro ⟨⟩
        exact noMinus rest text
    rw [negated?_of_ne noSign]
    cases Operand.negateLast? buffer.text <;> rfl

private theorem becomes_toggleSign : Becomes buffer .toggleSign buffer.toggleSign := by
  rw [toggleSign_eq]
  cases found : negated? buffer.text with
  | none => exact .unchanged (by simp)
  | some text => exact .negated found

/-- A result takes the place of the text. -/
theorem evaluate_of_ok {settings : Settings} {calculation : Calculation}
    (success : settings.calculate (balanceParentheses buffer.text) = .ok calculation) :
    buffer.evaluate settings = (⟨calculation.text, .empty, true⟩, .ok calculation) := by
  simp only [evaluate, success]

theorem evaluate_of_error {settings : Settings} {failure : Failure}
    (fails : settings.calculate (balanceParentheses buffer.text) = .error failure) :
    buffer.evaluate settings = (buffer, .error failure) := by
  simp only [evaluate, fails]

private theorem becomes_evaluate (settings : Settings) :
    Becomes buffer (.evaluate settings) (buffer.evaluate settings).1 := by
  cases outcome : settings.calculate (balanceParentheses buffer.text) with
  | ok calculation =>
    rw [buffer.evaluate_of_ok outcome]
    exact .evaluated outcome
  | error failure =>
    rw [buffer.evaluate_of_error outcome]
    exact .unchanged (by simp)

/-- Whatever an operation does is one of the cases. -/
theorem becomes_apply (operation : Operation) : Becomes buffer operation (buffer.apply operation) := by
  cases operation with
  | digitOrPoint input => exact buffer.becomes_appendDigitOrPoint input
  | operator symbol => exact buffer.becomes_appendOperator symbol
  | insert addition =>
    by_cases nonempty : addition = []
    · rw [nonempty]
      exact .unchanged (by simp)
    · rw [apply, buffer.appendText_eq nonempty]
      exact .inserted nonempty
  | percent => exact .percent
  | clear => exact .cleared
  | backspace => exact buffer.becomes_backspace
  | toggleSign => exact buffer.becomes_toggleSign
  | evaluate settings => exact buffer.becomes_evaluate settings

end Becomes

/-- The clear key offers to clear all exactly if there is no text to take back, or a result instead. -/
def StateFits (buffer : Buffer) : Prop :=
  buffer.state = .empty ↔ buffer.text = [] ∨ buffer.showingResult = true

/-- A shown result is made shorter or negated, and a text is left. -/
def EditsResult (buffer : Buffer) (operation : Operation) : Prop :=
  buffer.showingResult = true ∧ (operation = .backspace ∨ operation = .toggleSign) ∧
    (buffer.apply operation).text ≠ [] ∧ (buffer.apply operation).showingResult = false

variable {buffer after : Buffer} {operation : Operation}

theorem stateFits_ofText (text : Text) : StateFits (ofText text) := by
  cases text <;> simp [StateFits, ofText]

theorem stateFits_edited {text : Text} (nonempty : text ≠ []) : StateFits (edited text) := by
  simp [StateFits, edited, nonempty]

/-- Typing leaves a text. -/
theorem stateFits_typed (front : Text) {back : Text} (nonempty : back ≠ []) :
    StateFits (edited (front ++ back)) :=
  stateFits_edited (List.append_ne_nil_of_right_ne_nil front nonempty)

theorem pointBehind_ne_nil (text : Text) : pointBehind text ≠ [] := by
  unfold pointBehind
  split <;> simp

/-- A text that is left of a shown result does not fit the state any more, as only typing sets it. -/
theorem stateFits_shortened_iff (fits : StateFits buffer) (someText : buffer.text ≠ []) (text : Text) :
    StateFits (buffer.shortened text) ↔ ¬ (buffer.showingResult = true ∧ text ≠ []) := by
  by_cases empty : text = []
  · simp [StateFits, shortened, empty]
  · have result : buffer.state = .empty ↔ buffer.showingResult = true := by
      simpa only [StateFits, someText, false_or] using fits
    simp [StateFits, shortened, empty, result]

theorem text_ne_nil_of_negated? {text negated : Text} (found : negated? text = some negated) :
    text ≠ [] := by
  rintro rfl
  cases found

/-- Next to no text and next to a result the clear key offers to clear all. -/
def OffersClear (buffer : Buffer) : Prop :=
  buffer.text = [] ∨ buffer.showingResult = true → buffer.state = .empty

theorem StateFits.offersClear (fits : StateFits buffer) : OffersClear buffer := fits.mpr

theorem offersClear_shortened (text : Text) : OffersClear (buffer.shortened text) := by
  rintro (empty | showing)
  · obtain rfl : text = [] := empty
    rfl
  · cases showing

/-- There is a text and no result, and still the clear key offers to clear all. -/
structure Stale (buffer : Buffer) : Prop where
  offersClear : buffer.state = .empty
  someText : buffer.text ≠ []
  noResult : buffer.showingResult = false

theorem Stale.not_stateFits (stale : Stale buffer) : ¬ StateFits buffer := by
  intro fits
  rcases fits.mp stale.offersClear with noText | showing
  · exact stale.someText noText
  · cases stale.noResult.symm.trans showing

/-- Where the clear key offers what it has to, this is the only way in which the state does not fit. -/
theorem stale_iff (offers : OffersClear buffer) : Stale buffer ↔ ¬ StateFits buffer := by
  refine ⟨Stale.not_stateFits, fun misfit => ?_⟩
  have empty : buffer.state = .empty := by
    by_contra filled
    exact misfit ⟨fun empty => absurd empty filled, offers⟩
  have neither : ¬ (buffer.text = [] ∨ buffer.showingResult = true) := fun either =>
    misfit (iff_of_true empty either)
  obtain ⟨someText, hidden⟩ := not_or.mp neither
  exact ⟨empty, someText, Bool.eq_false_iff.mpr hidden⟩

/-- What sets the state, whatever it was: an input that is typed, a clear, an evaluation that succeeds. -/
inductive SetsState (buffer : Buffer) : Operation → Prop
  | digit {c : Char} (digit : c.isDigit = true) : SetsState buffer (.digitOrPoint [c])
  | point (first : '.' ∉ currentOperand buffer.typedText) : SetsState buffer (.digitOrPoint ['.'])
  | operator {symbol : Text} (someText : buffer.text ≠ []) : SetsState buffer (.operator symbol)
  | inserted {addition : Text} (nonempty : addition ≠ []) : SetsState buffer (.insert addition)
  | percent : SetsState buffer .percent
  | cleared : SetsState buffer .clear
  | evaluated {settings : Settings} {calculation : Calculation}
      (success : settings.calculate (balanceParentheses buffer.text) = .ok calculation) :
      SetsState buffer (.evaluate settings)

section Step

variable (symbols : ∀ symbol, operation = .operator symbol → symbol ≠ [])
include symbols

/-- Where the state is set, it fits, also if it did not fit before. -/
theorem stateFits_of_setsState (sets : SetsState buffer operation) :
    StateFits (buffer.apply operation) := by
  cases sets with
  | digit digit =>
    rw [apply, buffer.appendDigitOrPoint_digit digit]
    exact stateFits_typed _ (List.cons_ne_nil _ _)
  | point first =>
    rw [apply, buffer.appendDigitOrPoint_point first]
    exact stateFits_typed _ (pointBehind_ne_nil _)
  | operator someText =>
    rw [apply, buffer.appendOperator_eq _ someText]
    exact stateFits_typed _ (symbols _ rfl)
  | inserted nonempty =>
    rw [apply, buffer.appendText_eq nonempty]
    exact stateFits_typed _ nonempty
  | percent => exact stateFits_typed _ (List.cons_ne_nil _ _)
  | cleared => exact stateFits_ofText []
  | evaluated success =>
    rw [apply, buffer.evaluate_of_ok success]
    simp [StateFits]

omit symbols in
/-- What does not set the state leaves the buffer, or discards a result, or edits the text that is there. -/
theorem setsState_or_keeps (buffer : Buffer) (operation : Operation) :
    SetsState buffer operation ∨ buffer.apply operation = buffer ∨
      (∃ input, operation = .digitOrPoint input) ∧
          buffer.apply operation = { buffer with text := buffer.typedText } ∨
        (operation = .backspace ∨ operation = .toggleSign) ∧ buffer.text ≠ [] ∧
          ∃ text, buffer.apply operation = buffer.shortened text := by
  have becomes := buffer.becomes_apply operation
  generalize buffer.apply operation = after at becomes
  cases becomes with
  | unchanged other => exact .inr (.inl rfl)
  | discarded => exact .inr (.inr (.inl ⟨⟨_, rfl⟩, rfl⟩))
  | digit digit => exact .inl (.digit digit)
  | point first => exact .inl (.point first)
  | operator someText => exact .inl (.operator someText)
  | inserted nonempty => exact .inl (.inserted nonempty)
  | percent => exact .inl .percent
  | cleared => exact .inl .cleared
  | backspaced someText front => exact .inr (.inr (.inr ⟨.inl rfl, someText, _, rfl⟩))
  | negated found =>
    exact .inr (.inr (.inr ⟨.inr rfl, text_ne_nil_of_negated? found, _, rfl⟩))
  | evaluated success => exact .inl (.evaluated success)

/-- One step keeps the state in step with the text unless it edits a shown result. -/
theorem stateFits_apply_iff (fits : StateFits buffer) :
    StateFits (buffer.apply operation) ↔ ¬ EditsResult buffer operation := by
  rw [EditsResult]
  rcases setsState_or_keeps buffer operation with
    sets | same | ⟨⟨input, rfl⟩, same⟩ | ⟨edit, someText, text, same⟩
  · refine iff_of_true (stateFits_of_setsState symbols sets) fun broken => ?_
    rcases broken.2.1 with rfl | rfl <;> cases sets
  · rw [same]
    refine iff_of_true fits fun broken => ?_
    cases broken.1.symm.trans broken.2.2.2
  · rw [same]
    refine iff_of_true ?_ (by simp)
    unfold StateFits typedText at *
    cases showing : buffer.showingResult <;> simpa [showing] using fits
  · rw [same, stateFits_shortened_iff fits someText]
    simp [shortened, edit]

/-- Next to no text and next to a result the clear key offers to clear all, whatever was edited. -/
theorem offersClear_apply (offers : OffersClear buffer) : OffersClear (buffer.apply operation) := by
  rcases setsState_or_keeps buffer operation with sets | same | ⟨-, same⟩ | ⟨-, -, text, same⟩
  · exact (stateFits_of_setsState symbols sets).offersClear
  · rwa [same]
  · rw [same]
    unfold OffersClear typedText at *
    cases showing : buffer.showingResult <;> simpa [showing] using offers
  · rw [same]
    exact offersClear_shortened text

/-- A state that does not fit stays until it is set or no text is left. -/
theorem stale_apply_iff (stale : Stale buffer) :
    Stale (buffer.apply operation) ↔
      ¬ (SetsState buffer operation ∨ (buffer.apply operation).text = []) := by
  constructor
  · rintro after (sets | noText)
    · exact after.not_stateFits (stateFits_of_setsState symbols sets)
    · exact after.someText noText
  · intro kept
    obtain ⟨noSet, someText⟩ := not_or.mp kept
    rcases (setsState_or_keeps buffer operation).resolve_left noSet with
      same | ⟨-, same⟩ | ⟨-, -, text, same⟩
    · rwa [same]
    · have typed : buffer.typedText = buffer.text := by simp [typedText, stale.noResult]
      rwa [same, typed]
    · rw [same] at someText ⊢
      have left : text ≠ [] := someText
      exact ⟨by simpa [shortened, left] using stale.offersClear, left, rfl⟩

end Step

/-- On every run with operators that have a sign, the clear key offers to clear all where there is no
text or a result. It offers this nowhere else, throughout the run, exactly if no step of the run makes a
shown result shorter or negates it. -/
theorem clearKey_along_run (text : Text) (operations : List Operation)
    (symbols : ∀ symbol, .operator symbol ∈ operations → symbol ≠ []) :
    Throughout apply OffersClear (ofText text) operations ∧
      (Throughout apply StateFits (ofText text) operations ↔
        ∀ front operation back, operations = front ++ operation :: back →
          ¬ EditsResult (front.foldl apply (ofText text)) operation) := by
  have signs (operation) (member : operation ∈ operations) (symbol : Text)
      (sign : operation = .operator symbol) : symbol ≠ [] := symbols symbol (sign ▸ member)
  constructor
  · intro front inside
    refine List.foldlRecOn front apply (stateFits_ofText text).offersClear ?_
    intro buffer offers operation member
    exact offersClear_apply (signs operation (inside.subset member)) offers
  · rw [throughout_iff fun buffer fits operation member =>
      stateFits_apply_iff (signs operation member) fits]
    exact and_iff_right (stateFits_ofText text)

/-- Typing `+4` behind `7`, evaluating and taking a digit back. -/
theorem clearKey_along_run_sum :
    (∀ symbol, Operation.operator symbol ∈
        [Operation.operator ['+'], .digitOrPoint ['4'], .evaluate .standard, .backspace] →
      symbol ≠ []) ∧
      Throughout apply OffersClear (ofText ['7'])
        [.operator ['+'], .digitOrPoint ['4'], .evaluate .standard, .backspace] ∧
      ¬ Throughout apply StateFits (ofText ['7'])
        [.operator ['+'], .digitOrPoint ['4'], .evaluate .standard, .backspace] := by
  have symbols : ∀ symbol, Operation.operator symbol ∈
      [Operation.operator ['+'], .digitOrPoint ['4'], .evaluate .standard, .backspace] →
        symbol ≠ [] := by
    simp
  have edits : EditsResult
      ([.operator ['+'], .digitOrPoint ['4'], .evaluate .standard].foldl apply (ofText ['7']))
        .backspace := by
    refine ⟨?_, .inl rfl, ?_, ?_⟩ <;> decide +kernel
  obtain ⟨offers, fits⟩ := clearKey_along_run ['7'] _ symbols
  refine ⟨symbols, offers, fun throughout => ?_⟩
  exact fits.mp throughout _ _ [] rfl edits

/-- Of the result `11` a digit is taken back: the `1` that is left could be taken back as well. -/
theorem offers_clear_behind_result :
    [Operation.evaluate .standard, .backspace].foldl apply (ofText ['1', '1']) =
        ⟨['1'], .empty, false⟩ ∧
      ¬ StateFits ⟨['1'], .empty, false⟩ := by
  refine ⟨by decide +kernel, ?_⟩
  simp [StateFits]

/-- Once the state does not fit, it does not fit throughout a run exactly if no step of the run sets it or
leaves no text. -/
theorem stale_along_run (stale : Stale buffer) (operations : List Operation)
    (symbols : ∀ symbol, .operator symbol ∈ operations → symbol ≠ []) :
    Throughout apply Stale buffer operations ↔
      ∀ front operation back, operations = front ++ operation :: back →
        ¬ (SetsState (front.foldl apply buffer) operation ∨
          ((front.foldl apply buffer).apply operation).text = []) := by
  rw [throughout_iff fun buffer stale operation member =>
    stale_apply_iff (fun symbol sign => symbols symbol (sign ▸ member)) stale]
  exact and_iff_right stale

end Buffer

end Calculator
