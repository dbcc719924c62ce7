import Calculator.Proofs.Buffer.SignKey
import Calculator.Proofs.Calls
import Calculator.Proofs.Scan.Digits

/-! # The meaning of a text when the sign key is pressed twice

Pressed twice, the sign key can leave a text in which the operand at the end has lost its parentheses,
or has got some. Around a signed number they make no difference. An unsigned numeral needs them where
it would be read together with what stands in front of it: behind a number it is the rest of a longer
numeral, behind a function name it is no argument, behind `5%` it is the divisor of a remainder, and
behind a minus sign it can be a negative number.
-/

namespace Calculator

open Operand

/-- Behind the text a number means the same as in parentheses. -/
structure TakesOperand (before : Text) : Prop where
  noNumber : (lastToken? before).any Token.isNumber = false
  noFunction : (lastToken? before).any Token.isFunction = false
  settled : Percent.Settled ((scan before).map Span.token)

/-- Moreover, an unsigned numeral behind the text is read as this number. -/
structure StandsAlone (before : Text) : Prop extends TakesOperand before where
  noSign : ∀ front, before = front ++ ['-'] → Scan.signAllowed (lastToken? front) = false

theorem TakesOperand.of_binary {before : Text} {operator : BinaryOperator}
    (ends : lastToken? before = some (.binary operator)) : TakesOperand before where
  noNumber := by rw [ends]; rfl
  noFunction := by rw [ends]; rfl
  settled front tokens := by
    rw [lastToken?, tokens, List.getLast?_concat] at ends
    have other : some Token.percentSign ≠ some (.binary operator) := by cases operator <;> decide
    exact absurd ends other

namespace Operand

variable {wrapped negative : Bool} {digits : Text}

theorem percentSign_notMem_closedTokens (count : Nat) :
    .percentSign ∉ closedTokens wrapped negative digits count := by
  intro member
  rcases List.mem_append.mp member with inside | behind
  · cases wrapped <;> simp [tokens, token, Token.grouped, Token.percentSign, Token.opening,
      Token.closing] at inside
  · cases List.eq_of_mem_replicate behind

/-- In front of a parenthesis a product is missing where one is missing in front of a number, unless
a number or a function stands there. -/
theorem between_closedTokens {last : Option Token} (noNumber : last.any Token.isNumber = false)
    (noFunction : last.any Token.isFunction = false) (count : Nat) :
    Product.between last (closedTokens wrapped negative digits count).head? =
      Product.between last (some (token negative digits)) := by
  cases wrapped with
  | false => rfl
  | true =>
    change Product.between last (some .opening) = _
    cases last with
    | none => rfl
    | some token =>
      cases token with
      | number => exact Bool.noConfusion noNumber
      | function => exact Bool.noConfusion noFunction
      | _ => rfl

/-- No product is missing inside an operand or in front of closing parentheses. -/
theorem insertMissing_closedTokens (count : Nat) :
    Product.insertMissing (closedTokens wrapped negative digits count) =
      closedTokens wrapped negative digits count := by
  have closings (count : Nat) : (token negative digits :: List.replicate count .closing).IsChain
      fun left right => Product.isMissing left right = false := by
    refine List.IsChain.cons (List.isChain_replicate_of_rel count rfl) fun next head => ?_
    rw [List.eq_of_mem_replicate (List.mem_of_mem_head? head)]
    rfl
  refine Product.insertMissing_eq_self ?_
  cases wrapped with
  | false => exact closings count
  | true => exact (closings (count + 1)).cons_cons rfl

end Operand

section Numeral

variable {before digits : Text} {wrapped negative : Bool}

private theorem writtenTokens_of_scan {text : Text} {count : Nat} (takes : TakesOperand before)
    (scanned : (scan text).map Span.token =
      (scan before).map Span.token ++ closedTokens wrapped negative digits count) :
    writtenTokens text = writtenTokens before ++
      Product.between (lastToken? before) (some (token negative digits)) ++
        closedTokens wrapped negative digits count := by
  have last : (tokenize before).getLast? = lastToken? before :=
    takes.settled.getLast?_fold_disambiguate
  rw [writtenTokens, tokenize, scanned,
    takes.settled.fold_disambiguate_append (percentSign_notMem_closedTokens count), ← tokenize,
    Product.insertMissing_append, last, between_closedTokens takes.noNumber takes.noFunction,
    insertMissing_closedTokens, writtenTokens]

private theorem isFunction_getLast?_of_takes (takes : TakesOperand before) (next : Option Token) :
    (writtenTokens before ++ Product.between (lastToken? before) next).getLast?.any
      Token.isFunction = false := by
  have last : (writtenTokens before).getLast? = lastToken? before :=
    (Product.getLast?_insertMissing _).trans takes.settled.getLast?_fold_disambiguate
  rcases Product.between_eq (lastToken? before) next with none | product
  · rw [none, List.append_nil, last, takes.noFunction]
  · rw [product, List.getLast?_concat]
    rfl

private theorem evaluate_of_scan {bare grouped : Text} {count : Nat} (mode : AngleMode)
    (takes : TakesOperand before)
    (single : (scan bare).map Span.token =
      (scan before).map Span.token ++ closedTokens false negative digits count)
    (group : (scan grouped).map Span.token =
      (scan before).map Span.token ++ closedTokens true negative digits count) :
    evaluate mode grouped = evaluate mode bare := by
  have bareTokens := writtenTokens_of_scan takes single
  have calls := isChain_writtenTokens bare
  rw [bareTokens] at calls
  have known : substituteConstants (List.replicate count .closing) =
      .ok ((List.replicate count .closing).map Token.plain) :=
    substituteConstants_eq fun name member => Token.noConfusion (List.eq_of_mem_replicate member)
  rw [evaluate_eq, evaluate_eq, bareTokens, writtenTokens_of_scan takes group]
  exact evaluateTokens_append_grouped_number calls.left_of_append
    (isFunction_getLast?_of_takes takes _) known _ _

section Unsigned

variable (unsigned : isUnsigned digits = true)
include unsigned

private theorem evaluate_append_written (mode : AngleMode)
    (sign : wrapped = false → negative = true → endsWithSign before = true)
    (alone : wrapped = true → negative = false → StandsAlone before) :
    evaluate mode (balanceParentheses (before ++ written negative negative digits)) =
      evaluate mode (balanceParentheses (before ++ written wrapped negative digits)) := by
  rw [Buffer.balanceParentheses_append_written before unsigned,
    Buffer.balanceParentheses_append_written before unsigned]
  cases wrapped with
  | true =>
    cases negative with
    | true => rfl
    | false =>
      replace alone := alone rfl rfl
      exact (evaluate_of_scan mode alone.toTakesOperand
        (map_token_scan_append_unsigned unsigned before _ alone.noNumber alone.noSign)
        (map_token_scan_append_wrapped unsigned before false _)).symm
  | false =>
    cases negative with
    | true =>
      obtain ⟨operator, ends⟩ := lastToken?_of_endsWithSign (sign rfl rfl)
      have allowed : Scan.signAllowed (lastToken? before) = true := by rw [ends]; rfl
      exact evaluate_of_scan mode (.of_binary ends)
        (map_token_scan_append_negative unsigned before _ allowed)
        (map_token_scan_append_wrapped unsigned before true _)
    | false => rfl

end Unsigned

end Numeral

/-- What stands in front of the operand that the sign key finds does not join it: behind this text a
negative operand may lose its sign, and an unsigned one its parentheses. -/
def KeepsMeaning (text : Text) : Prop :=
  ∀ before wrapped negative digits, isUnsigned digits = true →
    split? text = some (before, written wrapped negative digits) →
      if negative then Buffer.EndsNumerals before else wrapped = true → StandsAlone before

/-- Only the operand that is found matters, and it has only one form. -/
theorem keepsMeaning_iff {text before digits : Text} {wrapped negative : Bool}
    (unsigned : isUnsigned digits = true)
    (found : split? text = some (before, written wrapped negative digits)) :
    KeepsMeaning text ↔
      if negative then Buffer.EndsNumerals before else wrapped = true → StandsAlone before := by
  constructor
  · intro keeps
    exact keeps before wrapped negative digits unsigned found
  · intro fits front otherWrapped otherNegative other otherUnsigned again
    obtain ⟨rfl, same⟩ := Prod.mk.inj (Option.some.inj (found.symm.trans again))
    obtain ⟨rfl, rfl, -⟩ := written_inj unsigned otherUnsigned same
    exact fits

theorem Buffer.text_toggleSign_toggleSign {buffer : Buffer} {later : Text}
    (pressed : negated? buffer.text >>= negated? = some later) :
    buffer.toggleSign.toggleSign.text = later := by
  obtain ⟨first, found, again⟩ := Option.bind_eq_some_iff.mp pressed
  have once : buffer.toggleSign = buffer.shortened first := by rw [toggleSign_eq, found]; rfl
  have twice : negated? (buffer.shortened first).text = some later := again
  rw [once, toggleSign_eq, twice]
  rfl

/-- Pressed twice, the sign key keeps the meaning of a text: its value, or the error that it reports. -/
theorem evaluate_toggleSign_toggleSign (mode : AngleMode) (buffer : Buffer)
    (noMinus : buffer.text.head? ≠ some '-') (noBreak : '\n' ∉ buffer.text)
    (keeps : KeepsMeaning buffer.text) :
    evaluate mode (balanceParentheses buffer.toggleSign.toggleSign.text) =
      evaluate mode (balanceParentheses buffer.text) := by
  cases found : split? buffer.text with
  | none =>
    have kept : buffer.toggleSign = buffer := by
      rw [Buffer.toggleSign_eq, Buffer.negated?_of_ne noMinus, negateLast?,
        Buffer.withoutFinalBreak_eq_self noBreak, found]
      rfl
    rw [kept, kept]
  | some parts =>
    obtain ⟨before, operand⟩ := parts
    obtain ⟨wrapped, negative, digits, unsigned, rfl⟩ := Buffer.exists_written_of_split? found
    have fits := keeps before wrapped negative digits unsigned found
    have pressed := Buffer.negated?_negated? unsigned noMinus noBreak found fun isNegative =>
      (if_pos isNegative).mp fits
    rw [Buffer.text_toggleSign_toggleSign pressed, ← (atEnd_of_split? found).1]
    refine evaluate_append_written unsigned mode ?_ ?_
    · rintro rfl rfl
      exact endsWithSign_of_negative unsigned found
    · rintro isWrapped rfl
      exact (if_neg Bool.false_ne_true).mp fits isWrapped

/-- The operands of `2+(5)` and `3x-2`: the first one loses its parentheses, the second one gets some. -/
theorem evaluate_toggleSign_toggleSign_operators :
    KeepsMeaning "2+(5)".toList ∧ KeepsMeaning "3x-2".toList ∧
      evaluate .radians (balanceParentheses
        (Buffer.ofText "2+(5)".toList).toggleSign.toggleSign.text) = .ok 7 ∧
      evaluate .radians (balanceParentheses
        (Buffer.ofText "3x-2".toList).toggleSign.toggleSign.text) = .ok (-6) := by
  have plus : KeepsMeaning "2+(5)".toList := by
    have found : split? "2+(5)".toList = some ("2+".toList, written true false ['5']) := by decide
    have ends : lastToken? "2+".toList = some (.binary .plus) := by decide +kernel
    refine (keepsMeaning_iff rfl found).mpr fun _ => ⟨.of_binary ends, fun front same => ?_⟩
    have last := congrArg List.getLast? same
    rw [List.getLast?_concat] at last
    cases last
  have times : KeepsMeaning "3x-2".toList := by
    have found : split? "3x-2".toList = some ("3x".toList, written false true ['2']) := by decide
    refine (keepsMeaning_iff rfl found).mpr ⟨rfl, fun front same => ?_⟩
    have last := congrArg List.getLast? same
    rw [List.getLast?_concat] at last
    cases last
  refine ⟨plus, times, ?_, ?_⟩
  · refine (evaluate_toggleSign_toggleSign .radians (Buffer.ofText "2+(5)".toList) (by decide)
      (by decide) plus).trans ?_
    decide +kernel
  · refine (evaluate_toggleSign_toggleSign .radians (Buffer.ofText "3x-2".toList) (by decide)
      (by decide) times).trans ?_
    decide +kernel

/-- Behind a number the operand loses the parentheses that made it a factor. -/
theorem factor_joined_by_sign_key :
    "1(5)".toList.head? ≠ some '-' ∧ '\n' ∉ "1(5)".toList ∧
      evaluate .radians (balanceParentheses (Buffer.ofText "1(5)".toList).text) = .ok 5 ∧
      (Buffer.ofText "1(5)".toList).toggleSign.toggleSign.text = "15".toList ∧
      evaluate .radians (balanceParentheses
        (Buffer.ofText "1(5)".toList).toggleSign.toggleSign.text) ≠ .ok 5 := by
  decide +kernel

end Calculator
