import Calculator.Text.Basic

/-! # Closing what is still open

A text under the user's hands often lacks closing parentheses. They are supplied at its end, by the
number of those that are missing in all; a surplus is left for evaluation to report.
-/

namespace Calculator

/-- The text with as many closing parentheses at its end as it has unmatched opening ones. -/
def balanceParentheses (text : Text) : Text :=
  text ++ List.replicate (text.count '(' - text.count ')') ')'

end Calculator
