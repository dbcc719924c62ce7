import Calculator.Token.Basic

/-! # Products that the user leaves out

Two neighbours that both belong to operands are multiplied: `2(3)`, `(1)(2)`, `2π`, `πsin(1)`. A
function that no parenthesis follows is malformed; a product after it makes evaluation report that.
-/

namespace Calculator.Product

/-- Whether a multiplication sign is missing between two neighbours. -/
def isMissing : Token → Token → Bool
  | .function _, .openParen _ => false
  | .function _, _ => true
  | .number .., .openParen _ | .number .., .constant _ | .number .., .function _ => true
  | .closeParen _, .number .. | .closeParen _, .constant _ => true
  | .closeParen _, .openParen _ | .closeParen _, .function _ => true
  | .constant _, .number .. | .constant _, .openParen _ | .constant _, .function _ => true
  | _, _ => false

/-- Writes every missing multiplication sign. -/
def insertMissing : List Token → List Token
  | first :: second :: rest =>
      if isMissing first second then first :: .times :: insertMissing (second :: rest)
      else first :: insertMissing (second :: rest)
  | tokens => tokens

end Calculator.Product
