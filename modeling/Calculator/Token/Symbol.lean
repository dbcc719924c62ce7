/-! # Functions and binary operators

The functions and operators that evaluation knows, with the symbols that stand for them. Symbols
outside these tables can stand in a token, but nothing can be computed with them.
-/

namespace Calculator

/-- The functions of one argument. -/
inductive Function where
  | sin | cos | tan | asin | acos | atan | ln | exp | sqrt
deriving DecidableEq

namespace Function

/-- Every function, in the order in which the scanner tries their names. -/
def all : List Function := [sin, cos, tan, asin, acos, atan, ln, exp, sqrt]

/-- The name as it is typed. -/
def name : Function → String
  | sin => "sin"
  | cos => "cos"
  | tan => "tan"
  | asin => "asin"
  | acos => "acos"
  | atan => "atan"
  | ln => "ln"
  | exp => "exp"
  | sqrt => "sqrt"

/-- The function of a name. -/
def ofName? (name : String) : Option Function := all.find? (·.name == name)

/-- Functions whose argument is an angle. -/
def takesAngle : Function → Bool
  | sin | cos | tan => true
  | _ => false

/-- Functions whose result is an angle. -/
def givesAngle : Function → Bool
  | asin | acos | atan => true
  | _ => false

end Function

/-- The operators that stand between two operands. -/
inductive BinaryOperator where
  | plus | minus | times | divide | modulo | power
deriving DecidableEq

namespace BinaryOperator

/-- Every binary operator. -/
def all : List BinaryOperator := [plus, minus, times, divide, modulo, power]

/-- The symbol as it is typed. -/
def symbol : BinaryOperator → String
  | plus => "+"
  | minus => "-"
  | times => "x"
  | divide => "÷"
  | modulo => "mod"
  | power => "^"

/-- The operator of a symbol. -/
def ofSymbol? (symbol : String) : Option BinaryOperator := all.find? (·.symbol == symbol)

end BinaryOperator

/-- How tightly a symbol binds. Functions and the factorial bind tightest, unknown symbols not at all. -/
def precedence (symbol : String) : Nat :=
  match symbol with
  | "!" => 5
  | "^" => 4
  | "(" | ")" => 3
  | "x" | "÷" | "mod" | "%" => 2
  | "+" | "-" => 1
  | _ => if (Function.ofName? symbol).isSome then 5 else 0

end Calculator
