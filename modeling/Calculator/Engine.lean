import Calculator.Evaluation
import Calculator.Percent
import Calculator.Product
import Calculator.Result
import Calculator.Settings

/-! # From a text to a result

The whole way: tokens, missing products, evaluation, and the text of the value. Nothing is kept from
one calculation to the next.
-/

namespace Calculator

/-- A finished calculation: the text that was given, its value, and the text that is shown for it. -/
structure Calculation where
  expression : Text
  value : Float
  text : Text
deriving DecidableEq

/-- The value of a text. -/
def evaluate (mode : AngleMode) (expression : Text) : Except Failure Float :=
  evaluateTokens mode (Product.insertMissing (tokenize expression))

namespace Settings

/-- The text that is shown for a value. -/
def resultText (settings : Settings) (value : Float) : Except Failure Text :=
  Result.text value settings.precision settings.tolerance

/-- Calculates a text. -/
def calculate (settings : Settings) (expression : Text) : Except Failure Calculation := do
  let value ← evaluate settings.mode expression
  return ⟨expression, value, ← settings.resultText value⟩

end Settings

end Calculator
