import Calculator.Error
import Calculator.Number.Binary64
import Calculator.Token.Symbol

/-! # Checked arithmetic on doubles

The operations that evaluation applies to finite doubles. What is not a number or not finite never
leaves them: it is reported as an error of the domain, and a division by zero is reported before it
is carried out.
-/

namespace Calculator

/-- The unit in which angles are given and answered. -/
inductive AngleMode where
  | radians
  | degrees
deriving DecidableEq

namespace AngleMode

/-- The name of the unit. -/
def name : AngleMode → String
  | radians => "rad"
  | degrees => "deg"

/-- The unit of a name. -/
def ofName? (name : String) : Option AngleMode := [radians, degrees].find? (·.name == name)

end AngleMode

namespace Arithmetic

/-- The double nearest to π. -/
def pi : Float := 3.141592653589793

/-- The value of a constant's name. -/
def constant? (name : String) : Option Float := if name = "π" then some pi else none

/-- Lets finite results pass; `symbol` names what was computed. -/
def checked (result : Float) (symbol : String) : Except Failure Float :=
  if result.isNaN then throw (.reported (.undefinedFor symbol))
  else if result.isInf then throw (.reported .outOfRange)
  else return result

/-- The product of the integers from 1 to `n`. -/
def factorialNat : Nat → Nat
  | 0 => 1
  | n + 1 => (n + 1) * factorialNat n

/-- The largest integer whose factorial is below the largest double. -/
def maxFactorial : Nat := 170

/-- The factorial of a non-negative integer, computed exactly and rounded once. -/
def factorial (x : Float) : Except Failure Float :=
  match Binary64.meaning x with
  | .notANumber => throw .integerOfNaN
  | .infinity false => throw .integerOfInfinity
  | .infinity true => throw (.reported .factorialArgument)
  | .number value =>
      if value < 0 ∨ value.den ≠ 1 then throw (.reported .factorialArgument)
      else if maxFactorial < value.num.toNat then throw (.reported .outOfRange)
      else return Binary64.nearest (factorialNat value.num.toNat)

/-- A hundredth. -/
def hundredth (x : Float) : Float := x / 100

/-- The unchecked result of a binary operator. A remainder has the sign of the dividend. -/
def rawBinary : BinaryOperator → Float → Float → Float
  | .plus, a, b => a + b
  | .minus, a, b => a - b
  | .times, a, b => a * b
  | .divide, a, b => a / b
  | .modulo, a, b => Binary64.remainder a b
  | .power, a, b => a.pow b

/-- The checked result of a binary operator. -/
def binary (operator : BinaryOperator) (a b : Float) : Except Failure Float :=
  if (operator = .divide ∨ operator = .modulo) ∧ b == 0 then throw (.reported .divisionByZero)
  else checked (rawBinary operator a b) operator.symbol

/-- The unchecked result of a function whose angles are in radians. -/
def rawFunction : Function → Float → Float
  | .sin, x => x.sin
  | .cos, x => x.cos
  | .tan, x => x.tan
  | .asin, x => x.asin
  | .acos, x => x.acos
  | .atan, x => x.atan
  | .ln, x => x.log
  | .exp, x => x.exp
  | .sqrt, x => x.sqrt

/-- The argument in radians of a function called in a mode. -/
def toRadians (mode : AngleMode) (f : Function) (x : Float) : Float :=
  if mode = .degrees ∧ f.takesAngle then x * (pi / 180) else x

/-- The result in a mode of a function that answers in radians. -/
def ofRadians (mode : AngleMode) (f : Function) (x : Float) : Float :=
  if mode = .degrees ∧ f.givesAngle then x * (180 / pi) else x

/-- The checked result of a function. -/
def call (mode : AngleMode) (f : Function) (x : Float) : Except Failure Float :=
  if f = .ln ∧ x ≤ 0 then throw (.reported .logarithmArgument)
  else if f = .sqrt ∧ x < 0 then throw (.reported .squareRootArgument)
  else checked (ofRadians mode f (rawFunction f (toRadians mode f x))) f.name

end Arithmetic

end Calculator
