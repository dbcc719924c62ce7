import Calculator.Number.Literal
import Calculator.Token.Basic

/-! # Scanning a text into spans

A span is a token with its place in the text. Scanning is lenient: a character that starts no token
is skipped, so every text can be scanned. A minus sign directly in front of a digit is the sign of a
number unless the token before it is a number or a closing parenthesis; then it is subtraction.
-/

namespace Calculator

/-- A token together with the characters that it was read from. -/
structure Span where
  token : Token
  start : Nat
  length : Nat
deriving DecidableEq

/-- The place just after the last character. -/
def Span.stop (span : Span) : Nat := span.start + span.length

namespace Scan

/-- Whether a minus sign may be the sign of a number after the token `previous`. -/
def signAllowed : Option Token → Bool
  | some (.number ..) | some (.closeParen _) => false
  | _ => true

/-- The characters that are operators by themselves. -/
def operatorCharacters : Text := ['+', '-', 'x', '÷', '%', '^', '!']

/-- The token of a character that is a symbol by itself. -/
def symbol? (c : Char) : Option Token :=
  if c = '(' then some .opening
  else if c = ')' then some .closing
  else if c ∈ operatorCharacters then some (.operator (String.singleton c))
  else none

/-- The words with their tokens. No word is the beginning of another one. -/
def words : List (Text × Token) :=
  ("mod".toList, .modulo) ::
    Function.all.map (fun f => (f.name.toList, .function f.name)) ++ [("π".toList, .pi)]

/-- The word at the start of a text, with its length. -/
def word? (text : Text) : Option (Token × Nat) :=
  (words.find? fun word => word.1.isPrefixOf text).map fun word => (word.2, word.1.length)

/-- The token at the start of a text, with the number of characters that it takes. -/
def lexeme? (previous : Option Token) : Text → Option (Token × Nat)
  | [] => none
  | c :: rest =>
      if c = '-' ∧ startsWithDigit rest ∧ signAllowed previous then
        let literal := Literal.atStart rest
        some (.number (-literal.value) false, literal.spelling.length + 1)
      else if c.isDigit then
        let literal := Literal.atStart (c :: rest)
        some (.number literal.value false, literal.spelling.length)
      else match symbol? c with
        | some token => some (token, 1)
        | none => word? (c :: rest)

/-- The spans of the rest of a text that continues at place `start` after the token `previous`. -/
def spansFrom (previous : Option Token) (start : Nat) : Text → List Span
  | [] => []
  | c :: rest =>
      match lexeme? previous (c :: rest) with
      | none => spansFrom previous (start + 1) rest
      | some (token, length) =>
          ⟨token, start, length⟩ :: spansFrom (some token) (start + length) (rest.drop (length - 1))
termination_by text => text.length

end Scan

/-- The spans of a text, from left to right. -/
def scan (text : Text) : List Span := Scan.spansFrom none 0 text

end Calculator
