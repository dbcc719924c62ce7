import Calculator.Proofs.Buffer.TrailingToken

/-! # Taking back a key

A key that types one token is taken back by one press of backspace. What it types may join with the end of
the text: a digit makes a number longer, turns a minus sign into the sign of a number or completes a decimal
fraction. In all these cases a number of several characters ends the text, and it loses just the digit.
Only behind a letter more can go: this may end a function name that a parenthesis belongs to, or be the
beginning of a word that the typed text completes.
-/

namespace Calculator

/-- Whether a character is a letter of a word. The multiplication sign is none, as no word ends with it. -/
def isWordLetter (c : Char) : Bool := c.isLower && c != 'x'

/-- Whether the last character of a text is a letter of a word. -/
def endsWithLetter (text : Text) : Bool := text.getLast?.any isWordLetter

private theorem isWordLetter_of_isDigit {c : Char} (digit : c.isDigit = true) : isWordLetter c = false := by
  refine Bool.eq_false_iff.mpr fun letter => ?_
  have lower : c.isLower = true := (Bool.and_eq_true_iff.mp letter).1
  have below : c.val ≤ '9'.val := of_decide_eq_true (Bool.and_eq_true_iff.mp digit).2
  have above : 'a'.val ≤ c.val := of_decide_eq_true (Bool.and_eq_true_iff.mp lower).1
  exact absurd (UInt32.le_trans above below) (by decide)

theorem endsWithLetter_append (front : Text) {back : Text} (nonempty : back ≠ []) :
    endsWithLetter (front ++ back) = endsWithLetter back := by
  rw [endsWithLetter, List.getLast?_append_of_ne_nil _ nonempty, endsWithLetter]

private theorem single_or_letter : ∀ word ∈ Scan.words,
    word.1.length = 1 ∧ word.2.isFunction = false ∨ endsWithLetter word.1 = true := by decide

private theorem letter_or_apart : ∀ word ∈ Scan.words, ∀ place < word.1.length, 0 < place →
    endsWithLetter (word.1.take place) = true ∨
      ∀ f ∈ Function.all, (word.1.drop place).isPrefixOf (f.name.toList ++ ['(']) = false := by decide

section Text

variable {text front : Text} {earlier : List Span} {last : Span} {c : Char}

/-- A token at the end of a text that does not end with a letter is a number or a single character. -/
theorem isNumber_or_single (spans : scan text = earlier ++ [last]) (stop : last.stop = text.length)
    (noLetter : endsWithLetter text = false) :
    last.token.isFunction = false ∧ (last.token.isNumber = true ∨ last.length = 1) := by
  obtain ⟨front, back, token, rfl, rfl, -, -, reads⟩ := exists_reads_of_last spans stop
  rw [endsWithLetter_append front reads.ne_nil] at noLetter
  cases reads with
  | number => exact ⟨rfl, .inl rfl⟩
  | negative => exact ⟨rfl, .inl rfl⟩
  | symbol known =>
    refine ⟨?_, .inr rfl⟩
    unfold Scan.symbol? at known
    split_ifs at known <;> cases known <;> rfl
  | word known =>
    obtain ⟨single, other⟩ | letter := single_or_letter _ known
    · exact ⟨other, .inr single⟩
    · exact absurd (noLetter.symm.trans letter) Bool.false_ne_true

/-- A single character goes again, whatever it was joined with. -/
theorem Buffer.kept_concat (noLetter : endsWithLetter front = false) (other : isWordLetter c = false) :
    kept (front ++ [c]) = front := by
  rcases TrailingToken.exists_last_or_apart (front ++ [c]) with ⟨earlier, last, spans, stop⟩ | apart
  · by_cases digits : last.token.isNumber = true ∧ 1 < last.length
    · rw [kept_of_number stop spans digits.1 digits.2, List.dropLast_concat]
    · have positive := (bounds_of_scan spans).1
      have single : last.length = 1 := by
        obtain ⟨-, number | single⟩ := isNumber_or_single spans stop (by simpa [endsWithLetter] using other)
        · exact Nat.le_antisymm (Nat.not_lt.mp fun long => digits ⟨number, long⟩) positive
        · exact single
      have place : last.start = front.length := by
        rw [Span.stop, single, List.length_append, List.length_singleton] at stop
        exact Nat.add_right_cancel stop
      have inFront := scan_take_start spans
      rw [place, List.take_left] at inFront
      have noCall : ∀ before ∈ earlier.getLast?, ¬ OpensCall before last := by
        rintro before ends ⟨-, function, adjacent⟩
        obtain ⟨more, split⟩ := List.getLast?_eq_some_iff.mp ends
        obtain ⟨noFunction, -⟩ :=
          isNumber_or_single (inFront.trans split) (adjacent.trans place) noLetter
        exact absurd (noFunction.symm.trans function) Bool.false_ne_true
      rw [kept_of_token stop spans digits noCall, place, List.take_left]
  · rw [kept_of_apart apart, List.dropLast_concat]

/-- A call stands apart from a text in front that does not end with a letter. -/
theorem apart_call (noLetter : endsWithLetter text = false) (f : Function) :
    Scan.Apart text (f.name.toList ++ ['(']) where
  noDigit := by cases f <;> rfl
  noPoint := by cases f <;> decide
  noWord word member first rest split some more ends reached := by
    have inside : first.length < word.1.length := by
      rw [split, List.length_append]
      exact Nat.lt_add_of_pos_right (List.length_pos_iff.mpr more)
    have cases := letter_or_apart word member first.length inside (List.length_pos_iff.mpr some)
    rw [split, List.take_left, List.drop_left] at cases
    obtain ⟨front, rfl⟩ := ends
    rw [endsWithLetter_append front some] at noLetter
    rcases cases with letter | apart
    · exact absurd (noLetter.symm.trans letter) Bool.false_ne_true
    · have known : f ∈ Function.all := by cases f <;> decide
      exact absurd ((apart f known).symm.trans (List.isPrefixOf_iff_prefix.mpr reached))
        Bool.false_ne_true

/-- A call at the end of a text is scanned as the function and its parenthesis. -/
theorem scan_append_call (noLetter : endsWithLetter text = false) (f : Function) :
    scan (text ++ (f.name.toList ++ ['('])) =
      scan text ++ [⟨.function f.name, text.length, f.name.toList.length⟩,
        ⟨.opening, text.length + f.name.toList.length, 1⟩] := by
  have symbol : (Lexeme.function f).isNumber = false := rfl
  have name : Scan.lexeme? (lastToken? text) (f.name.toList ++ ['(']) =
      some (.function f.name, f.name.toList.length) := Lexeme.lexeme?_symbol _ symbol rfl
  have opening : Scan.lexeme? (some (.function f.name)) (['('] ++ []) = some (.opening, ['('].length) := rfl
  have nonempty : f.name.toList ≠ [] := by cases f <;> decide
  rw [((apart_call noLetter f).cut none).scan_append, Scan.spansFrom_of_lexeme? nonempty name,
    ← List.append_nil ['('], Scan.spansFrom_of_lexeme? (List.cons_ne_nil _ _) opening, Scan.spansFrom]
  rfl

/-- A function name goes again with its parenthesis. -/
theorem Buffer.kept_append_call (noLetter : endsWithLetter text = false) (f : Function) :
    kept (text ++ (f.name.toList ++ ['('])) = text := by
  refine (kept_of_call ?_ (scan_append_call noLetter f) ⟨rfl, rfl, rfl⟩).trans List.take_left
  simp [Span.stop, Nat.add_assoc]

end Text

namespace Buffer

/-- The operations that type one token behind a text: a digit, a percent sign, another symbol or a constant,
a function with its parenthesis, an operator that replaces no other one, and the point of a numeral. -/
inductive TypesToken (text : Text) : Operation → Prop
  | digit {c : Char} (digit : c.isDigit = true) : TypesToken text (.digitOrPoint [c])
  | percent : TypesToken text .percent
  | symbol {c : Char} (symbol : c ∈ ['(', ')', '!', '^', 'π']) : TypesToken text (.insert [c])
  | call (f : Function) : TypesToken text (.insert (f.name.toList ++ ['(']))
  | operator {c : Char} (sign : Operand.isOperatorSign c = true) (someText : text ≠ [])
      (noSign : Operand.endsWithSign text = false) : TypesToken text (.operator [c])
  | point (behindDigits : currentOperand text ≠ []) (first : '.' ∉ currentOperand text) :
      TypesToken text (.digitOrPoint ['.'])

variable {buffer : Buffer} {operation : Operation}

/-- What one of these operations types does not end with a letter, and it is taken off again. -/
theorem TypesToken.exists_typed (types : TypesToken buffer.text operation)
    (typing : buffer.showingResult = false) (noLetter : endsWithLetter buffer.text = false) :
    ∃ typed, buffer.apply operation = edited (buffer.text ++ typed) ∧ typed ≠ [] ∧
      endsWithLetter typed = false ∧ kept (buffer.text ++ typed) = buffer.text := by
  have here : buffer.typedText = buffer.text := by rw [typedText, typing, if_neg Bool.false_ne_true]
  have single (c : Char) (other : isWordLetter c = false)
      (typed : buffer.apply operation = edited (buffer.text ++ [c])) :
      ∃ typed, buffer.apply operation = edited (buffer.text ++ typed) ∧ typed ≠ [] ∧
        endsWithLetter typed = false ∧ kept (buffer.text ++ typed) = buffer.text :=
    ⟨[c], typed, List.cons_ne_nil _ _, other, kept_concat noLetter other⟩
  cases types with
  | @digit c digit =>
    refine single c (isWordLetter_of_isDigit digit) ?_
    rw [apply, buffer.appendDigitOrPoint_digit digit, here]
  | percent => exact single '%' rfl rfl
  | @symbol c symbol =>
    have none : ['(', ')', '!', '^', 'π'].any isWordLetter = false := by decide
    exact single c (Bool.eq_false_iff.mpr (List.any_eq_false.mp none c symbol))
      (buffer.appendText_eq (List.cons_ne_nil _ _))
  | call f =>
    have nonempty : f.name.toList ++ ['('] ≠ [] := by simp
    refine ⟨_, buffer.appendText_eq nonempty, nonempty, ?_, kept_append_call noLetter f⟩
    rw [endsWithLetter_append _ (List.cons_ne_nil _ _)]
    rfl
  | @operator c sign someText noSign =>
    have other : isWordLetter c = false := by
      rcases Operand.isOperatorSign_cases sign with rfl | rfl | rfl | rfl <;> rfl
    refine single c other ?_
    rw [apply, buffer.appendOperator_eq _ someText, withoutSign, if_neg (by simp [noSign])]
  | point behindDigits first =>
    rw [← here] at first behindDigits
    refine single '.' rfl ?_
    rw [apply, buffer.appendDigitOrPoint_point first, pointBehind, if_neg (by simpa using behindDigits), here]

/-- One press of backspace takes back an operation that types one token, behind every text that does not end
with a letter: the text is there again, and the clear key offers to clear all if it is empty. -/
theorem backspace_apply (buffer : Buffer) (typing : buffer.showingResult = false)
    (noLetter : endsWithLetter buffer.text = false) (types : TypesToken buffer.text operation) :
    (buffer.apply operation).backspace = ofText buffer.text := by
  obtain ⟨typed, after, nonempty, -, back⟩ := types.exists_typed typing noLetter
  have someText : (edited (buffer.text ++ typed)).text ≠ [] :=
    List.append_ne_nil_of_right_ne_nil buffer.text nonempty
  rw [after, backspace_eq someText]
  change (edited (buffer.text ++ typed)).shortened (kept (buffer.text ++ typed)) = _
  rw [back]
  rfl

/-- Behind `2x-` the key of a digit turns the operator into a sign, and the number loses the digit again. -/
theorem backspace_apply_digit :
    (ofText "2x-".toList).showingResult = false ∧ endsWithLetter (ofText "2x-".toList).text = false ∧
      TypesToken (ofText "2x-".toList).text (.digitOrPoint ['5']) ∧
      ((ofText "2x-".toList).apply (.digitOrPoint ['5'])).backspace = ofText "2x-".toList := by
  have types : TypesToken (ofText "2x-".toList).text (.digitOrPoint ['5']) := .digit (by decide)
  exact ⟨rfl, by decide, types, backspace_apply _ rfl (by decide) types⟩

/-- Operations that type one token each, one behind the other. -/
inductive TypesTokens : Buffer → List Operation → Prop
  | nil {buffer : Buffer} : TypesTokens buffer []
  | cons {buffer : Buffer} {operation : Operation} {later : List Operation}
      (types : TypesToken buffer.text operation) (rest : TypesTokens (buffer.apply operation) later) :
      TypesTokens buffer (operation :: later)

/-- As many presses of backspace take back a whole run of such operations. -/
theorem text_backspace_iterate {operations : List Operation} (types : TypesTokens buffer operations)
    (typing : buffer.showingResult = false) (noLetter : endsWithLetter buffer.text = false) :
    (backspace^[operations.length] (operations.foldl apply buffer)).text = buffer.text := by
  induction types with
  | nil => rfl
  | @cons buffer operation later types rest ih =>
    obtain ⟨typed, after, nonempty, ends, back⟩ := types.exists_typed typing noLetter
    have someText : buffer.text ++ typed ≠ [] := List.append_ne_nil_of_right_ne_nil buffer.text nonempty
    rw [after] at ih
    have before := ih rfl ((endsWithLetter_append buffer.text nonempty).trans ends)
    rw [List.length_cons, List.foldl_cons, Function.iterate_succ_apply', after,
      backspace_eq (by rw [before]; exact someText)]
    exact (congrArg kept before).trans back

end Buffer

end Calculator
