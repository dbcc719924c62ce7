import Calculator.Proofs.Evaluation.ErrorKinds
import Calculator.Proofs.Evaluation.Finiteness
import Calculator.Proofs.Scan.Parentheses

/-! # Balanced parentheses

Evaluation reports parentheses exactly where counting them does, and a text keeps its count on the
way to its tokens. Closing what is open at the end of a text is therefore enough to never see such an
error again, unless the text closes more than it opens somewhere: then nothing at its end can help.
-/

namespace Calculator

variable {settings : Settings} {text : Text}

/-- A calculation fails with the kinds of error that evaluation fails with. -/
theorem Settings.calculate_avoids {kind : ErrorKind}
    (evaluated : Avoids kind (evaluate settings.mode text)) : Avoids kind (settings.calculate text) := by
  refine evaluated.bind fun x success => ?_
  have finite : x.isFinite = true := (evaluateTokens_reports settings.mode _).ok_of_eq success
  obtain ⟨shown, formatted⟩ := settings.exists_resultText finite
  rw [formatted]
  exact .ok _

/-- A calculation that succeeds has evaluated its text. -/
theorem Settings.exists_evaluate_of_calculate {calculation : Calculation}
    (success : settings.calculate text = .ok calculation) :
    ∃ x, evaluate settings.mode text = .ok x := by
  obtain ⟨x, evaluated, -⟩ := bind_eq_ok_iff.mp success
  exact ⟨x, evaluated⟩

/-- Parentheses and operands are accounted for, from the text to its value: balanced tokens are never
reported as unbalanced, others never evaluate, what evaluates has one operand more than binary
operators, and a text whose open parentheses are closed at its end is reported as unbalanced only if
it closes too much by itself. -/
theorem parentheses_accounted :
    (∀ (mode : AngleMode) (tokens : List Token), Token.Balanced tokens →
      Avoids .unbalancedParentheses (evaluateTokens mode tokens)) ∧
    (∀ (mode : AngleMode) (tokens : List Token), ¬ Token.Balanced tokens →
      ∀ x, evaluateTokens mode tokens ≠ .ok x) ∧
    (∀ (mode : AngleMode) (tokens : List Token) (x : Float), evaluateTokens mode tokens = .ok x →
      tokens.countP Token.isOperand = tokens.countP Token.isBinary + 1) ∧
    ∀ (settings : Settings) (text : Text),
      (NeverOvercloses text →
        Avoids .unbalancedParentheses (settings.calculate (balanceParentheses text))) ∧
      (¬ NeverOvercloses text →
        ∀ calculation, settings.calculate (balanceParentheses text) ≠ .ok calculation) := by
  refine ⟨?_, ?_, ?_, ?_⟩
  · intro mode tokens balanced
    exact evaluateTokens_avoids balanced mode
  · intro mode tokens unbalanced x success
    exact unbalanced (balanced_of_evaluateTokens success)
  · intro mode tokens x success
    exact operands_of_evaluateTokens success
  · intro settings text
    refine ⟨fun never => ?_, fun overcloses calculation success => ?_⟩
    · refine Settings.calculate_avoids ?_
      rw [evaluate_eq]
      exact evaluateTokens_avoids (balanced_balanceParentheses never) settings.mode
    · obtain ⟨x, evaluated⟩ := Settings.exists_evaluate_of_calculate success
      have balanced := balanced_of_evaluateTokens evaluated
      have never := neverOvercloses_writtenTokens.mp balanced.neverOvercloses
      exact overcloses (neverOvercloses_balanceParentheses.mp never)

/-- The groups of `2(3+(4`, closed at the end, and `)2(`, in which nothing can be closed. -/
theorem parentheses_accounted_open_group :
    NeverOvercloses "2(3+(4".toList ∧ ¬ NeverOvercloses ")2(".toList ∧
      Avoids .unbalancedParentheses
        (Settings.standard.calculate (balanceParentheses "2(3+(4".toList)) ∧
      (∀ calculation,
        Settings.standard.calculate (balanceParentheses ")2(".toList) ≠ .ok calculation) ∧
      Avoids .unbalancedParentheses (evaluateTokens .radians [.opening, .pi, .closing]) ∧
      (∀ x, evaluateTokens .radians [.closing, .opening, .pi] ≠ .ok x) ∧
      [Token.opening, .pi, .closing].countP Token.isOperand =
        [Token.opening, .pi, .closing].countP Token.isBinary + 1 := by
  obtain ⟨balanced, unbalanced, operands, texts⟩ := parentheses_accounted
  have closed : NeverOvercloses "2(3+(4".toList := by decide +kernel
  have overclosed : ¬ NeverOvercloses ")2(".toList := by decide +kernel
  have value : evaluateTokens .radians [.opening, .pi, .closing] = .ok Arithmetic.pi := by
    decide +kernel
  exact ⟨closed, overclosed, (texts _ _).1 closed, (texts _ _).2 overclosed,
    balanced _ _ (by decide +kernel), unbalanced _ _ (by decide +kernel), operands _ _ _ value⟩

end Calculator
