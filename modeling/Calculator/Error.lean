/-! # What can go wrong

`EvalError` lists the reasons for which an expression has no value, each with its kind and wording.
`Failure` adds the failures that a user never meets: they arise only for values or settings that no
evaluation produces.
-/

namespace Calculator

/-- The kinds of error. -/
inductive ErrorKind where
  | invalidNumber
  | unbalancedParentheses
  | emptyExpression
  | invalidExpression
  | divisionByZero
  | domainError
  | unsupportedOperator
deriving DecidableEq

namespace ErrorKind

/-- Every kind of error. -/
def all : List ErrorKind :=
  [invalidNumber, unbalancedParentheses, emptyExpression, invalidExpression, divisionByZero,
    domainError, unsupportedOperator]

/-- The name of the kind. -/
def name : ErrorKind → String
  | invalidNumber => "InvalidNumber"
  | unbalancedParentheses => "UnbalancedParentheses"
  | emptyExpression => "EmptyExpression"
  | invalidExpression => "InvalidExpression"
  | divisionByZero => "DivisionByZero"
  | domainError => "DomainError"
  | unsupportedOperator => "UnsupportedOperator"

/-- The kind of a name. -/
def ofName? (name : String) : Option ErrorKind := all.find? (·.name == name)

/-- What is said when nothing more precise is known. -/
def defaultMessage : ErrorKind → String
  | invalidNumber => "Invalid number"
  | unbalancedParentheses => "Unbalanced parentheses"
  | emptyExpression => "Empty expression"
  | invalidExpression => "Invalid expression"
  | divisionByZero => "Division by zero"
  | domainError => "Math domain error"
  | unsupportedOperator => "Unsupported operator"

/-- A given text, unless there is none or it is empty. -/
def messageOr (kind : ErrorKind) : Option String → String
  | none => kind.defaultMessage
  | some text => if text.isEmpty then kind.defaultMessage else text

end ErrorKind

/-- Why an expression has no value. -/
inductive EvalError where
  | numberTooLarge
  | unopenedParenthesis
  | unclosedParenthesis
  | emptyExpression
  | missingOperand (symbol : String)
  | leftoverOperands
  | divisionByZero
  | undefinedFor (symbol : String)
  | outOfRange
  | factorialArgument
  | logarithmArgument
  | squareRootArgument
  | unsupportedOperator (symbol : Option String)
  | unknownFunction (name : String)
  | unknownConstant (name : String)
deriving DecidableEq

namespace EvalError

/-- The kind of an error. -/
def kind : EvalError → ErrorKind
  | numberTooLarge => .invalidNumber
  | unopenedParenthesis | unclosedParenthesis => .unbalancedParentheses
  | emptyExpression => .emptyExpression
  | missingOperand _ | leftoverOperands => .invalidExpression
  | divisionByZero => .divisionByZero
  | undefinedFor _ | outOfRange | factorialArgument | logarithmArgument | squareRootArgument =>
      .domainError
  | unsupportedOperator _ | unknownFunction _ | unknownConstant _ => .unsupportedOperator

/-- The wording of an error. A token without a symbol is called `None`. -/
def message : EvalError → String
  | numberTooLarge => "Number too large"
  | unopenedParenthesis => "Closing parenthesis without an opening one"
  | unclosedParenthesis => "Opening parenthesis is never closed"
  | emptyExpression => ErrorKind.emptyExpression.defaultMessage
  | missingOperand symbol => s!"Missing operand for '{symbol}'"
  | leftoverOperands => ErrorKind.invalidExpression.defaultMessage
  | divisionByZero => ErrorKind.divisionByZero.defaultMessage
  | undefinedFor symbol => s!"{symbol} is undefined for this value"
  | outOfRange => "Result out of range"
  | factorialArgument => "Factorial needs a non-negative integer"
  | logarithmArgument => "ln needs a positive argument"
  | squareRootArgument => "sqrt needs a non-negative argument"
  | unsupportedOperator symbol => "Unsupported operator: " ++ symbol.getD "None"
  | unknownFunction name => s!"Unknown function: {name}"
  | unknownConstant name => s!"Unknown constant: {name}"

end EvalError

/-- Everything that can end a computation without a value. Only `reported` concerns the user: the
other failures name a value, a display or a stack that evaluating a text never leads to. -/
inductive Failure where
  | reported (error : EvalError)
  | integerOfNaN
  | integerOfInfinity
  | tooManyDigits
  | unitTooLarge
  | emptyStack
deriving DecidableEq

instance : Coe EvalError Failure := ⟨.reported⟩

/-- The wording of a failure. -/
def Failure.message : Failure → String
  | reported error => error.message
  | integerOfNaN => "cannot convert float NaN to integer"
  | integerOfInfinity => "cannot convert float infinity to integer"
  | tooManyDigits => "the decimal needs more than 60 digits"
  | unitTooLarge => "the unit of the last place is too large"
  | emptyStack => "pop from empty list"

end Calculator
