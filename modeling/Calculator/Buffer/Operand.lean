import Calculator.Text.Basic

/-! # The operand under the sign key

The sign key works on the text, not on its tokens. It looks for a numeral at the end, possibly
wrapped in parentheses, and prefers one that directly follows an operator sign on the same line:
starting places are tried from the left, and for each the nearest operator sign first. The negated
numeral is wrapped in parentheses, and negating it again unwraps it.
-/

namespace Calculator.Operand

/-- Whether a text is a run of digits, possibly followed by a point and further digits. -/
def isUnsigned (text : Text) : Bool :=
  text.head?.any Char.isDigit && match text.dropWhile Char.isDigit with
    | [] => true
    | '.' :: fraction => fraction.all Char.isDigit
    | _ => false

/-- Whether a text is an unsigned numeral or a minus sign and an unsigned numeral. -/
def isNumeral : Text → Bool
  | '-' :: digits => isUnsigned digits
  | digits => isUnsigned digits

/-- Whether a text is a numeral in one pair of parentheses. -/
def isWrapped : Text → Bool
  | '(' :: rest => rest.getLast? == some ')' && isNumeral rest.dropLast
  | _ => false

/-- Whether a text can be negated as a whole. -/
def isOperand (text : Text) : Bool := isNumeral text || isWrapped text

/-- The signs that an operand may directly follow. -/
def isOperatorSign (c : Char) : Bool := c ∈ ['+', '-', 'x', '÷']

/-- Splits a text after the first operator sign that the rest of the text follows as an operand. The
text up to that sign must not contain a line break. -/
def splitAtSign? : Text → Option (Text × Text)
  | [] => none
  | c :: rest =>
      if isOperatorSign c && isOperand rest then some ([c], rest)
      else if c = '\n' then none
      else (splitAtSign? rest).map fun (before, operand) => (c :: before, operand)

/-- Splits a text in front of its last operand. From each starting place an operand after an operator
sign is preferred to one that begins right there, and the leftmost starting place wins. -/
def split? : Text → Option (Text × Text)
  | [] => none
  | c :: rest =>
      match splitAtSign? (c :: rest) with
      | some found => some found
      | none =>
          if isOperand (c :: rest) then some ([], c :: rest)
          else (split? rest).map fun (before, operand) => (c :: before, operand)

/-- The operand with its sign changed. A negative result is wrapped in parentheses. -/
def negate (operand : Text) : Text :=
  let bare := if isWrapped operand then operand.tail.dropLast else operand
  match bare with
  | '-' :: digits => digits
  | digits => '(' :: '-' :: digits ++ [')']

/-- The text without a line break at its very end. -/
def withoutFinalBreak (text : Text) : Text :=
  if text.getLast? = some '\n' then text.dropLast else text

/-- The text with its last operand negated, if it ends with one. A final line break is lost. -/
def negateLast? (text : Text) : Option Text :=
  (split? (withoutFinalBreak text)).map fun (before, operand) => before ++ negate operand

end Calculator.Operand
