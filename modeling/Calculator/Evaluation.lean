import Calculator.Arithmetic
import Calculator.Token.Basic

/-! # Evaluation with two stacks

Tokens are taken from left to right; no tree is built. Values wait on one stack, operators on the
other. An operator first applies the waiting ones that bind at least as tightly, so equal operators
associate to the left. Functions and opening parentheses wait for their closing parenthesis, which
applies the function below it to the value of the group. A percent sign acts at once.
-/

namespace Calculator

/-- Values and operators that wait, each stack with its top first. -/
structure Stacks where
  values : List Float
  operators : List Token
deriving DecidableEq

namespace Stacks

/-- Nothing waits. -/
def empty : Stacks := ⟨[], []⟩

/-- Takes the top value as an operand of `symbol`. -/
def popValue (symbol : String) : List Float → Except Failure (Float × List Float)
  | [] => throw (.reported (.missingOperand symbol))
  | value :: values => return (value, values)

/-- Applies a waiting token to the values. Apart from parentheses and functions the symbol alone
decides what is computed. -/
def applyToken (mode : AngleMode) (token : Token) (values : List Float) :
    Except Failure (List Float) :=
  match token with
  | .openParen _ => throw (.reported .unclosedParenthesis)
  | .function name => do
      let (x, rest) ← popValue name values
      match Function.ofName? name with
      | none => throw (.reported (.unknownFunction name))
      | some f => return (← Arithmetic.call mode f x) :: rest
  | _ =>
      match token.symbol? with
      | some "!" => do
          let (x, rest) ← popValue "!" values
          return (← Arithmetic.factorial x) :: rest
      | some symbol =>
          match BinaryOperator.ofSymbol? symbol with
          | none => throw (.reported (.unsupportedOperator symbol))
          | some operator => do
              let (b, rest) ← popValue symbol values
              let (a, rest) ← popValue symbol rest
              return (← Arithmetic.binary operator a b) :: rest
      | none => throw (.reported (.unsupportedOperator none))

/-- Applies the waiting operators from the top for as long as they satisfy a condition. -/
def applyWhile (mode : AngleMode) (condition : Token → Bool) (values : List Float) :
    List Token → Except Failure Stacks
  | [] => return ⟨values, []⟩
  | token :: rest =>
      if condition token then do
        applyWhile mode condition (← applyToken mode token values) rest
      else return ⟨values, token :: rest⟩

/-- Applies the top operator. -/
def applyTop (mode : AngleMode) (waiting : Stacks) : Except Failure Stacks :=
  match waiting.operators with
  | [] => throw .emptyStack
  | token :: rest => return ⟨← applyToken mode token waiting.values, rest⟩

/-- Puts a number on the values; a percentage counts as its hundredth. -/
def pushNumber (token : Token) (waiting : Stacks) : Except Failure Stacks :=
  if token.value.isFinite then
    let value := if token.isPercentage then Arithmetic.hundredth token.value else token.value
    return { waiting with values := value :: waiting.values }
  else throw (.reported .numberTooLarge)

/-- Replaces the top value by its hundredth. -/
def applyPercent (waiting : Stacks) : Except Failure Stacks := do
  let (x, rest) ← popValue "%" waiting.values
  return { waiting with values := Arithmetic.hundredth x :: rest }

/-- Lets a token wait without applying anything. -/
def pushWaiting (token : Token) (waiting : Stacks) : Stacks :=
  { waiting with operators := token :: waiting.operators }

/-- Applies the operators of the innermost open group that bind at least as tightly as a token, then
lets the token wait. -/
def pushOperator (mode : AngleMode) (token : Token) (waiting : Stacks) : Except Failure Stacks := do
  let bindsFirst := fun top : Token => !top.isOpenParen && token.precedence ≤ top.precedence
  return pushWaiting token (← applyWhile mode bindsFirst waiting.values waiting.operators)

/-- Closes the innermost open group and applies the function in front of it. -/
def closeGroup (mode : AngleMode) (waiting : Stacks) : Except Failure Stacks := do
  let inner ← applyWhile mode (fun top => !top.isOpenParen) waiting.values waiting.operators
  match inner.operators with
  | [] => throw (.reported .unopenedParenthesis)
  | _ :: outer =>
      let closed : Stacks := ⟨inner.values, outer⟩
      if outer.head?.any Token.isFunction then closed.applyTop mode else return closed

/-- Takes one token. -/
def feed (mode : AngleMode) (waiting : Stacks) (token : Token) : Except Failure Stacks :=
  match token with
  | .number .. => waiting.pushNumber token
  | .function _ | .openParen _ => return waiting.pushWaiting token
  | .closeParen _ => waiting.closeGroup mode
  | _ => if token = .percentSign then waiting.applyPercent else waiting.pushOperator mode token

/-- Applies everything that waits. A single value has to remain: it is the result. -/
def finish (mode : AngleMode) (waiting : Stacks) : Except Failure (Float × Stacks) := do
  let remaining ← applyWhile mode (fun _ => true) waiting.values waiting.operators
  match remaining.values with
  | [value] => return (value, remaining)
  | _ => throw (.reported .leftoverOperands)

end Stacks

/-- Puts the value of a constant in its place. -/
def substituteConstant : Token → Except Failure Token
  | .constant name =>
      match Arithmetic.constant? name with
      | none => throw (.reported (.unknownConstant name))
      | some value => return .number value false
  | token => return token

/-- Puts the values of constants in their places. -/
def substituteConstants (tokens : List Token) : Except Failure (List Token) :=
  tokens.mapM substituteConstant

/-- The value of a token sequence whose products are all written. -/
def evaluateTokens (mode : AngleMode) (tokens : List Token) : Except Failure Float := do
  if tokens.isEmpty then throw (.reported .emptyExpression)
  let waiting ← (← substituteConstants tokens).foldlM (Stacks.feed mode) .empty
  return (← waiting.finish mode).1

end Calculator
