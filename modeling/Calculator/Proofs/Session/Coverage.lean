import Calculator.Proofs.Balance
import Calculator.Proofs.Scan.Coverage
import Calculator.Proofs.Session.Points
import Calculator.Proofs.Written

/-! # Nothing typed is dropped

Keys type whole words and single characters, and what they take away ends where a token ends. So the
text of a session is read in full at any time, up to points that no digit follows; and as a point never
starts a text, evaluation always finds a token.
-/

namespace Calculator

open Buffer (Operation Becomes PointsFollowDigits)
open Scan (Legible)

/-- A legible text that does not start with a point starts with a token. -/
theorem writtenTokens_ne_nil {text : Text} (legible : Legible text) (nonempty : text ≠ [])
    (noPoint : text.head? ≠ some '.') : writtenTokens text ≠ [] := by
  obtain ⟨c, rest, rfl⟩ := List.exists_cons_of_ne_nil nonempty
  obtain ⟨span, member, -⟩ := legible.coversAllButPoints 0 c rfl (by simpa using noPoint)
  intro none
  rw [writtenTokens_eq_nil_iff.mp none] at member
  cases member

/-- Closing what is open takes no token away. -/
theorem writtenTokens_balanced_ne_nil {text : Text} (legible : Legible text)
    (points : PointsFollowDigits text) (nonempty : text ≠ []) :
    writtenTokens (balanceParentheses text) ≠ [] := by
  have closings (count : Nat) : Legible (List.replicate count ')') :=
    Scan.legible_of_all fun c member => List.eq_of_mem_replicate member ▸ rfl
  refine writtenTokens_ne_nil (legible.append (closings _)) (by simp [balanceParentheses, nonempty]) ?_
  obtain ⟨c, rest, rfl⟩ := List.exists_cons_of_ne_nil nonempty
  rintro ⟨⟩
  cases points [] rest rfl

namespace Session

variable {view : View} {settings : Settings} {buffer : Buffer} {operation : Operation}

private theorem isSingle_written {digits : Text} (unsigned : Operand.isUnsigned digits = true)
    (wrapped negative : Bool) : ∀ c ∈ Operand.written wrapped negative digits, Scan.isSingle c = true := by
  have inside : ∀ c ∈ digits, Scan.isSingle c = true := fun c member => by
    rw [Scan.isSingle, Operand.isNumeralCharacter_of_isUnsigned unsigned c member, Bool.true_or]
  have signs : Scan.isSingle '(' = true ∧ Scan.isSingle ')' = true ∧ Scan.isSingle '-' = true := by
    decide
  cases wrapped <;> cases negative <;>
    simpa [Operand.written, Operand.signed, or_imp, forall_and, signs] using inside

private theorem isSingle_of_isOperatorSign {c : Char} (sign : Operand.isOperatorSign c = true) :
    Scan.isSingle c = true := by
  rcases Operand.isOperatorSign_cases sign with rfl | rfl | rfl | rfl <;> rfl

private theorem legible_withoutSign {text : Text} (legible : Legible text) :
    Legible (Buffer.withoutSign text) := by
  unfold Buffer.withoutSign
  split
  · next ends =>
    obtain ⟨c, last, sign⟩ := (Option.any_eq_true ..).mp ends
    obtain ⟨front, rfl⟩ := List.getLast?_eq_some_iff.mp last
    rw [List.dropLast_concat]
    exact legible.left (by simpa using isSingle_of_isOperatorSign sign)
  · exact legible

private theorem legible_scientific {label : String} {text : Text}
    (typed : (label, text) ∈ Command.scientific) : Legible text := by
  have all : ∀ pair ∈ Command.scientific, pair.2.all Scan.isSingle = true ∨
      ∃ word ∈ Scan.words.map Prod.fst, word <+: pair.2 ∧
        (pair.2.drop word.length).all Scan.isSingle = true := by decide
  rcases all _ typed with singles | ⟨word, known, ⟨rest, rfl⟩, singles⟩
  · exact Scan.legible_of_all (List.all_eq_true.mp singles)
  · rw [List.drop_left] at singles
    exact .word known (Scan.legible_of_all (List.all_eq_true.mp singles))

private theorem legible_negated {text negated : Text} (legible : Legible text)
    (found : Buffer.negated? text = some negated) : Legible negated := by
  rcases Buffer.negated?_cases found with
    rfl | ⟨-, before, wrapped, negative, digits, unsigned, split, rfl⟩
  · exact legible.tail rfl
  · obtain ⟨whole, -⟩ := Operand.atEnd_of_split? split
    rw [Buffer.withoutFinalBreak_eq_self legible.noBreak] at whole
    rw [← whole] at legible
    have front := legible.left (isSingle_written unsigned wrapped negative)
    exact front.append (Scan.legible_of_all (isSingle_written unsigned _ _))

/-- Every key keeps a text legible. -/
theorem legible_apply (legible : Legible buffer.text) (sent : Sent view operation) :
    Legible (buffer.apply operation).text := by
  by_cases back : operation = .backspace
  · subst back
    by_cases empty : buffer.text = []
    · rwa [Buffer.apply, Buffer.backspace, Buffer.isEmpty, if_pos (List.isEmpty_iff.mpr empty)]
    · rw [Buffer.apply, Buffer.backspace_eq empty]
      exact legible.kept empty
  have becomes := buffer.becomes_apply operation
  generalize buffer.apply operation = later at becomes ⊢
  have typed : Legible buffer.typedText := Buffer.law_typedText .nil legible
  cases becomes with
  | unchanged => exact legible
  | discarded => exact typed
  | digit digit =>
    refine typed.append (.single ?_ .nil)
    simp [Scan.isSingle, Operand.isNumeralCharacter, digit]
  | point first =>
    refine typed.append (Scan.legible_of_all (List.all_eq_true.mp ?_))
    unfold Buffer.pointBehind
    split <;> rfl
  | operator someText =>
    cases sent with
    | operator sign =>
      exact (legible_withoutSign legible).append (.single (isSingle_of_isOperatorSign sign) .nil)
  | inserted nonempty =>
    cases sent with
    | insert scientific typed => exact legible.append (legible_scientific typed)
  | percent => exact legible.append (.single rfl .nil)
  | cleared => exact .nil
  | backspaced => exact absurd rfl back
  | negated found => exact legible_negated legible found
  | evaluated success =>
    obtain ⟨negative, digits, unsigned, same⟩ := Buffer.exists_written_of_calculate success
    rw [same]
    exact Scan.legible_of_all (isSingle_written unsigned false negative)

/-- After every run the text is legible, and its points stand behind digits. -/
theorem legibleText_after (view : View) (settings : Settings) (events : List Event) :
    let text := ((start view settings).after events).buffer.text
    Legible text ∧ PointsFollowDigits text := by
  refine law_after_of_apply (fun text => Legible text ∧ PointsFollowDigits text) view settings events
    ⟨.nil, Buffer.precededBy_nil⟩ ?_
  intro buffer operation ⟨legible, points⟩ sent
  exact ⟨legible_apply legible sent,
    pointsFollowDigits_of_becomes sent (buffer.becomes_apply operation) points⟩

/-- After every run, on either view: the whole text but points is read, a point stands behind a digit,
and no evaluation fails for want of a token. -/
theorem everything_typed_is_read (view : View) (settings : Settings) (events : List Event) :
    let session := (start view settings).after events
    CoversAllButPoints session.buffer.text ∧ PointsFollowDigits session.buffer.text ∧
      ∀ event, (session.failure? event).bind Failure.kind? ≠ some .emptyExpression := by
  obtain ⟨legible, points⟩ := legibleText_after view settings events
  refine ⟨legible.coversAllButPoints, points, kind?_failure?_ne fun someText => ?_⟩
  refine Settings.calculate_avoids ?_
  rw [evaluate_eq]
  exact evaluateTokens_avoids_empty (writtenTokens_balanced_ne_nil legible points someText) _

end Session

end Calculator
