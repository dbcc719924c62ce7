import Calculator.Number.Binary64
import Calculator.Number.Decimal

/-! # Unsigned decimal literals

A literal is a run of digits, then possibly a point with at least one further digit: a point that no
digit follows is not part of it. `Literal.atStart` takes the longest literal a text starts with,
`Literal.spelling` writes it back, and `Literal.value` is the double nearest to the decimal.
-/

namespace Calculator

/-- Whether the first character is a digit from 0 to 9. -/
def startsWithDigit (text : Text) : Bool := text.head?.any Char.isDigit

/-- The digits of a literal. Without a fraction it is spelled without a point. -/
structure Literal where
  whole : Text
  fraction : Text
deriving DecidableEq

namespace Literal

/-- The longest literal at the start of a text. -/
def atStart (text : Text) : Literal :=
  let whole := text.takeWhile Char.isDigit
  match text.dropWhile Char.isDigit with
  | '.' :: rest => ⟨whole, rest.takeWhile Char.isDigit⟩
  | _ => ⟨whole, []⟩

/-- The characters of a literal. -/
def spelling (literal : Literal) : Text :=
  literal.whole ++ if literal.fraction = [] then [] else '.' :: literal.fraction

/-- The decimal that a literal denotes. -/
def decimal (literal : Literal) : Decimal :=
  ⟨Nat.ofDigitChars 10 (literal.whole ++ literal.fraction) 0, literal.fraction.length⟩

/-- The double nearest to the decimal. A decimal that is too large gives an infinity. -/
def value (literal : Literal) : Float := Binary64.nearest literal.decimal.value

end Literal

end Calculator
