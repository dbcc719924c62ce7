import Calculator.Proofs.Buffer.SignKey
import Calculator.Proofs.Session.Run
import Mathlib.Data.List.Chain

/-! # Operator signs in a text

Two operator signs never stand next to each other. Only an operator key looks for a sign at the end, and it
replaces the one that it finds; no other key puts anything with a sign at its start behind a text. The sign
key writes a parenthesis or a digit first, and what is taken off a text is its start or its end.
-/

namespace Calculator

open Buffer (Operation Becomes)
open Operand (isOperatorSign endsWithSign)

namespace Buffer

variable {text front back digits : Text}

/-- Of two neighbours in the text at most one is an operator sign. -/
def SignsStandApart (text : Text) : Prop :=
  text.IsChain fun left right => ¬ (isOperatorSign left = true ∧ isOperatorSign right = true)

instance : DecidablePred SignsStandApart := fun text =>
  inferInstanceAs (Decidable (text.IsChain fun left right =>
    ¬ (isOperatorSign left = true ∧ isOperatorSign right = true)))

theorem SignsStandApart.part (apart : SignsStandApart text) (inside : front <:+: text) :
    SignsStandApart front := apart.infix inside

/-- Texts can be put together unless a sign meets a sign. -/
theorem SignsStandApart.append (apart : SignsStandApart front) (apartBack : SignsStandApart back)
    (meet : endsWithSign front = false ∨ back.head?.any isOperatorSign = false) :
    SignsStandApart (front ++ back) := by
  refine List.IsChain.append apart apartBack fun left last right first => ?_
  rintro ⟨leftSign, rightSign⟩
  rw [Option.mem_def] at last first
  rcases meet with noSign | noSign
  · simp [endsWithSign, last, leftSign] at noSign
  · simp [first, rightSign] at noSign

theorem signsStandApart_of_noSign (noSign : ∀ c ∈ text, isOperatorSign c = false) :
    SignsStandApart text := by
  refine List.Pairwise.isChain (List.pairwise_of_forall_mem_list fun left member right _ => ?_)
  simp [noSign left member]

/-- The only sign of an operand is the one in front of its digits. -/
theorem signsStandApart_written (unsigned : Operand.isUnsigned digits = true)
    (wrapped negative : Bool) : SignsStandApart (Operand.written wrapped negative digits) := by
  have noSign : ∀ c ∈ digits, isOperatorSign c = false := fun c member =>
    Operand.isOperatorSign_of_isNumeralCharacter (Operand.isNumeralCharacter_of_isUnsigned unsigned c member)
  have bare : SignsStandApart digits := signsStandApart_of_noSign noSign
  have signed : SignsStandApart (Operand.signed negative digits) := by
    cases negative with
    | false => exact bare
    | true => exact bare.cons fun c head => by simp [noSign c (List.mem_of_mem_head? head)]
  cases wrapped with
  | false => exact signed
  | true =>
    have closed : SignsStandApart (Operand.signed negative digits ++ [')']) :=
      signed.append (by decide) (.inr rfl)
    exact closed.cons fun c _ both => by cases both.1

/-- An operand in parentheses or without a sign can be put behind any text. -/
theorem SignsStandApart.append_written (apart : SignsStandApart front)
    (unsigned : Operand.isUnsigned digits = true) (negative : Bool) :
    SignsStandApart (front ++ Operand.written negative negative digits) := by
  refine apart.append (signsStandApart_written unsigned negative negative) (.inr ?_)
  cases negative with
  | true => rfl
  | false =>
    obtain ⟨c, rest, rfl, digit⟩ := Operand.exists_cons_of_isUnsigned unsigned
    exact Operand.isOperatorSign_of_isNumeralCharacter (by simp [Operand.isNumeralCharacter, digit])

/-- Where signs stand apart, there is none left in front of one that is taken off. -/
theorem endsWithSign_withoutSign (apart : SignsStandApart text) :
    endsWithSign (withoutSign text) = false := by
  unfold withoutSign
  split
  · next ends =>
    obtain ⟨c, last, sign⟩ := (Option.any_eq_true ..).mp ends
    obtain ⟨front, rfl⟩ := List.getLast?_eq_some_iff.mp last
    rw [List.dropLast_concat]
    refine (Option.any_eq_false ..).mpr fun left before => ?_
    have meet := (List.isChain_append.mp apart).2.2 left before c rfl
    exact Bool.eq_false_iff.mpr fun leftSign => meet ⟨leftSign, sign⟩
  · next noSign => exact Bool.eq_false_iff.mpr noSign

end Buffer

namespace Session

variable {view : View} {buffer later : Buffer} {operation : Operation}

/-- Every key keeps signs apart. -/
theorem signsStandApart_of_becomes (sent : Sent view operation)
    (becomes : Becomes buffer operation later) (apart : Buffer.SignsStandApart buffer.text) :
    Buffer.SignsStandApart later.text := by
  have typed : Buffer.SignsStandApart buffer.typedText := Buffer.law_typedText .nil apart
  cases becomes with
  | unchanged => exact apart
  | discarded => exact typed
  | @digit c digit =>
    refine typed.append (.singleton c) (.inr ?_)
    exact Operand.isOperatorSign_of_isNumeralCharacter (by simp [Operand.isNumeralCharacter, digit])
  | point first =>
    have numeral : Buffer.SignsStandApart (Buffer.pointBehind buffer.typedText) ∧
        (Buffer.pointBehind buffer.typedText).head?.any isOperatorSign = false := by
      unfold Buffer.pointBehind
      split <;> decide
    exact typed.append numeral.1 (.inr numeral.2)
  | operator someText =>
    cases sent with
    | operator sign =>
      exact (apart.part (Buffer.withoutSign_prefix _).isInfix).append (.singleton _)
        (.inl (Buffer.endsWithSign_withoutSign apart))
  | inserted nonempty =>
    cases sent with
    | insert scientific typed =>
      have all : ∀ pair ∈ Command.scientific, Buffer.SignsStandApart pair.2 ∧
          pair.2.head?.any isOperatorSign = false := by decide
      obtain ⟨inside, noSign⟩ := all _ typed
      exact apart.append inside (.inr noSign)
  | percent => exact apart.append (by decide) (.inr rfl)
  | cleared => exact .nil
  | backspaced someText front => exact apart.part front.isInfix
  | negated found =>
    rcases Buffer.negated?_cases found with
      minus | ⟨-, before, wrapped, negative, digits, unsigned, split, same⟩
    · rw [minus] at apart
      exact apart.part (List.suffix_cons _ _).isInfix
    · obtain ⟨whole, -⟩ := Operand.atEnd_of_split? split
      have inFront : before <+: buffer.text :=
        (List.prefix_append _ _).trans (whole ▸ Buffer.isPrefix_withoutFinalBreak buffer.text)
      have left : Buffer.SignsStandApart before := apart.part inFront.isInfix
      rw [Buffer.shortened, same]
      exact left.append_written unsigned (!negative)
  | evaluated success =>
    obtain ⟨negative, digits, unsigned, same⟩ := Buffer.exists_written_of_calculate success
    rw [same]
    exact Buffer.signsStandApart_written unsigned false negative

/-- After every run, on either view, no two operator signs stand next to each other. -/
theorem signs_stand_apart (view : View) (settings : Settings) (events : List Event) :
    Buffer.SignsStandApart ((start view settings).after events).buffer.text :=
  law_after Buffer.SignsStandApart view settings events .nil fun _ _ _ apart sent becomes =>
    signsStandApart_of_becomes sent becomes apart

end Session

end Calculator
