import Calculator.Span

/-! # Percent signs

A percent sign with a number on both sides is the remainder operator. Any other one takes a
hundredth of what stands before it; directly after a number it becomes a mark on that number, once.
-/

namespace Calculator

namespace Percent

/-- Reads percent signs between two numbers as remainder operators; `previous` is the token before. -/
def disambiguateFrom (previous : Option Token) : List Token → List Token
  | [] => []
  | token :: rest =>
      let between := previous.any Token.isNumber && rest.head?.any Token.isNumber
      (if token = .percentSign ∧ between then .modulo else token) :: disambiguateFrom (some token) rest

/-- Reads every percent sign with a number on both sides as the remainder operator. -/
def disambiguate (tokens : List Token) : List Token := disambiguateFrom none tokens

/-- Turns a percent sign directly after an unmarked number into the mark of that number. -/
def fold : List Token → List Token
  | [] => []
  | .number value false :: .percentSign :: rest => .number value true :: fold rest
  | token :: rest => token :: fold rest

end Percent

/-- The tokens of a text, with its percent signs settled. -/
def tokenize (text : Text) : List Token :=
  Percent.fold (Percent.disambiguate ((scan text).map Span.token))

end Calculator
