import Calculator.Buffer.Operand
import Calculator.Buffer.Parentheses
import Calculator.Buffer.TrailingToken
import Calculator.Engine

/-! # The text under edit

A buffer holds the text that the user types and what the display has to know about it. Every key is
one operation, and none of them fails: an edit that makes no sense is ignored. A result replaces the
text, and the next digit then starts a new number.
-/

namespace Calculator

/-- What the clear key offers: to clear all, or to take back the last token. -/
inductive BufferState where
  | empty
  | filled
deriving DecidableEq

/-- The name of a state. -/
def BufferState.name : BufferState → String
  | empty => "EMPTY"
  | filled => "FILLED"

/-- A text under edit. `showingResult` holds from a successful evaluation to the next edit. -/
structure Buffer where
  text : Text
  state : BufferState
  showingResult : Bool
deriving DecidableEq

namespace Buffer

/-- A buffer that starts with a text. -/
def ofText (text : Text) : Buffer := ⟨text, if text.isEmpty then .empty else .filled, false⟩

/-- Whether there is no text. -/
def isEmpty (buffer : Buffer) : Bool := buffer.text.isEmpty

/-- Whether the clear key takes back the last token. -/
def canBackspace (buffer : Buffer) : Bool := buffer.state = .filled

/-- The buffer after an edit that leaves a text to take back. -/
def edited (text : Text) : Buffer := ⟨text, .filled, false⟩

/-- The buffer after an edit that may have removed the whole text. -/
def shortened (text : Text) (buffer : Buffer) : Buffer :=
  ⟨text, if text.isEmpty then .empty else buffer.state, false⟩

/-- The run of digits and points at the end of a text. -/
def currentOperand (text : Text) : Text :=
  (text.reverse.takeWhile fun c => c.isDigit || c == '.').reverse

/-- Types a digit or a point. An operand takes one point, and a point without a digit in front of it
gets a zero. A shown result is discarded first, even if the input is then ignored. -/
def appendDigitOrPoint (input : Text) (buffer : Buffer) : Buffer :=
  let text := if buffer.showingResult then [] else buffer.text
  let ignored := { buffer with text }
  match input with
  | ['.'] =>
      let operand := currentOperand text
      if operand.contains '.' then ignored
      else edited (text ++ if operand.isEmpty then ['0', '.'] else ['.'])
  | [c] => if c.isDigit then edited (text ++ [c]) else ignored
  | _ => ignored

/-- Types an operator. It replaces an operator sign at the end and is ignored without a text. -/
def appendOperator (symbol : Text) (buffer : Buffer) : Buffer :=
  match buffer.text.getLast? with
  | none => buffer
  | some c =>
      edited ((if Operand.isOperatorSign c then buffer.text.dropLast else buffer.text) ++ symbol)

/-- Types a function name with its parenthesis, a parenthesis, a power or a constant. -/
def appendText (addition : Text) (buffer : Buffer) : Buffer :=
  if addition.isEmpty then buffer else edited (buffer.text ++ addition)

/-- Types a percent sign. -/
def appendPercent (buffer : Buffer) : Buffer := edited (buffer.text ++ ['%'])

/-- Starts over. -/
def clear (_ : Buffer) : Buffer := ofText []

/-- Takes back the last token, or the last digit of a number. -/
def backspace (buffer : Buffer) : Buffer :=
  if buffer.isEmpty then buffer
  else
    let removed := TrailingToken.removedLength (TrailingToken.ofText? buffer.text)
    buffer.shortened (buffer.text.take (buffer.text.length - removed))

/-- Changes the sign of the last operand. A minus sign at the very start is simply removed, and
without an operand at the end nothing changes. -/
def toggleSign (buffer : Buffer) : Buffer :=
  match buffer.text with
  | [] => buffer
  | '-' :: rest => buffer.shortened rest
  | text =>
      match Operand.negateLast? text with
      | none => buffer
      | some negated => buffer.shortened negated

/-- Evaluates the text with its missing parentheses supplied. A result replaces the text; a failure
leaves the buffer as it was. -/
def evaluate (settings : Settings) (buffer : Buffer) : Buffer × Except Failure Calculation :=
  let outcome := settings.calculate (balanceParentheses buffer.text)
  match outcome with
  | .ok calculation => (⟨calculation.text, .empty, true⟩, outcome)
  | .error _ => (buffer, outcome)

end Buffer

end Calculator
