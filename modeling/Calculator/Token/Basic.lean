import Calculator.Token.Symbol

/-! # Tokens

A token is a number, possibly marked as a percentage, or a symbol of one of five kinds. The kind
decides how evaluation stacks a token; how tightly it binds depends on its symbol alone.
-/

namespace Calculator

/-- What scanning reads, percent signs are folded into, and evaluation runs on. -/
inductive Token where
  | number (value : Float) (percent : Bool)
  | operator (symbol : String)
  | function (name : String)
  | openParen (symbol : String)
  | closeParen (symbol : String)
  | constant (name : String)
deriving DecidableEq

namespace Token

/-- The opening parenthesis. -/
def opening : Token := openParen "("

/-- The closing parenthesis. -/
def closing : Token := closeParen ")"

/-- The percent sign. -/
@[match_pattern]
def percentSign : Token := operator "%"

/-- The multiplication sign, also where the user leaves it out. -/
def times : Token := operator "x"

/-- The remainder operator. -/
def modulo : Token := operator "mod"

/-- The constant π. -/
def pi : Token := constant "π"

/-- The symbol of every token but a number. -/
def symbol? : Token → Option String
  | number .. => none
  | operator symbol | openParen symbol | closeParen symbol => some symbol
  | function name | constant name => some name

/-- The name of the kind. -/
def kindName : Token → String
  | number .. => "number"
  | operator _ => "operator"
  | function _ => "function"
  | openParen _ => "open_paren"
  | closeParen _ => "close_paren"
  | constant _ => "constant"

/-- Whether the token is a number. -/
def isNumber : Token → Bool
  | number .. => true
  | _ => false

/-- Whether the token opens a parenthesis. -/
def isOpenParen : Token → Bool
  | openParen _ => true
  | _ => false

/-- Whether the token is a function name. -/
def isFunction : Token → Bool
  | function _ => true
  | _ => false

/-- The value that the token carries: zero for all but numbers. -/
def value : Token → Float
  | number value _ => value
  | _ => 0

/-- Whether the token is a number marked as a percentage. -/
def isPercentage : Token → Bool
  | number _ percent => percent
  | _ => false

/-- How tightly the token binds. Numbers do not bind. -/
def precedence (token : Token) : Nat := token.symbol?.elim 0 Calculator.precedence

end Token

end Calculator
