import Calculator.Span

/-! # The token at the end of a text

What one press of backspace takes back depends on the token that ends where the text ends. A function
name together with the parenthesis directly after it counts as one token, as it is typed by one key.
-/

namespace Calculator

/-- The length of a token at the end of a text, and whether it is a number. -/
structure TrailingToken where
  length : Nat
  isNumber : Bool
deriving DecidableEq

namespace TrailingToken

/-- The token that a text ends with, if its last characters belong to one. -/
def ofText? (text : Text) : Option TrailingToken :=
  match (scan text).reverse with
  | [] => none
  | last :: earlier =>
      if last.stop ≠ text.length then none
      else
        let ofLast : TrailingToken := ⟨last.length, last.token.isNumber⟩
        match earlier.head? with
        | none => some ofLast
        | some before =>
            if last.token.isOpenParen ∧ before.token.isFunction ∧ before.stop = last.start then
              some ⟨last.stop - before.start, false⟩
            else some ofLast

/-- The characters that one backspace removes: a whole token, but only the last digit of a number of
several characters, and one character where the text ends with no token. -/
def removedLength : Option TrailingToken → Nat
  | none => 1
  | some token => if token.isNumber ∧ 1 < token.length then 1 else token.length

end TrailingToken

end Calculator
