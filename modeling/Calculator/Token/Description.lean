import Calculator.Number.Shortest
import Calculator.Text.Quoted
import Calculator.Token.Basic

/-! # Describing tokens

The one-line description of a token in reports: its kind with the shortest decimal of a number, or with
the quoted symbol of anything else.
-/

namespace Calculator.Token

/-- The description of a token. -/
def description (token : Token) : String :=
  let content := match token with
    | .number value percent => Shortest.text value ++ if percent then ['%'] else []
    | _ => Quoted.encode (token.symbol?.getD "").toList
  s!"Token({token.kindName}, {String.ofList content})"

end Calculator.Token
