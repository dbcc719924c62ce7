import Calculator.Token.Basic
import Mathlib.Data.List.Infix

/-! # Known tokens

The tokens of the symbols that evaluation knows, how tightly they bind, and the classes by which
tokens are counted.
-/

namespace Calculator

@[simp] theorem Function.ofName?_name (f : Function) : Function.ofName? f.name = some f := by
  cases f <;> rfl

@[simp] theorem BinaryOperator.ofSymbol?_symbol (operator : BinaryOperator) :
    BinaryOperator.ofSymbol? operator.symbol = some operator := by
  cases operator <;> rfl

/-- A name stands for a function only if it is the name of that function. -/
theorem Function.ofName?_eq_some_iff {name : String} {f : Function} :
    Function.ofName? name = some f ↔ name = f.name := by
  constructor
  · intro found
    have matched := List.find?_some found
    exact (eq_of_beq matched).symm
  · rintro rfl
    exact f.ofName?_name

/-- A symbol stands for an operator only if it is the symbol of that operator. -/
theorem BinaryOperator.ofSymbol?_eq_some_iff {symbol : String} {operator : BinaryOperator} :
    BinaryOperator.ofSymbol? symbol = some operator ↔ symbol = operator.symbol := by
  constructor
  · intro found
    have matched := List.find?_some found
    exact (eq_of_beq matched).symm
  · rintro rfl
    exact operator.ofSymbol?_symbol

namespace Token

/-- The token of a binary operator. -/
def binary (operator : BinaryOperator) : Token := .operator operator.symbol

/-- The token of the factorial sign. -/
def factorialSign : Token := .operator "!"

/-- A sequence in parentheses. -/
def grouped (tokens : List Token) : List Token := opening :: (tokens ++ [closing])

/-- Whether the token closes a parenthesis. -/
def isCloseParen : Token → Bool
  | closeParen _ => true
  | _ => false

/-- Whether the token is a constant. -/
def isConstant : Token → Bool
  | constant _ => true
  | _ => false

/-- Whether the token is an operand by itself: a number or a constant. -/
def isOperand : Token → Bool
  | number .. | constant _ => true
  | _ => false

/-- Whether the token is a binary operator. -/
def isBinary : Token → Bool
  | operator symbol => (BinaryOperator.ofSymbol? symbol).isSome
  | _ => false

/-- Whether evaluation knows what the token stands for: its operator or sign, its function, its constant. -/
def isSupported : Token → Bool
  | operator symbol =>
      symbol == "%" || symbol == "!" || (BinaryOperator.ofSymbol? symbol).isSome
  | function name => (Function.ofName? name).isSome
  | constant name => name == "π"
  | number .. | openParen _ | closeParen _ => true

/-- Whether the token is one that waits: percent signs act at once, and operands and closing parentheses
are no operators. -/
def canWait : Token → Bool
  | function _ | openParen _ => true
  | operator symbol => symbol != "%"
  | number .. | closeParen _ | constant _ => false

/-- No prefix of the sequence closes more parentheses than it opens. -/
def NeverOvercloses (tokens : List Token) : Prop :=
  ∀ front, front <+: tokens → front.countP isCloseParen ≤ front.countP isOpenParen

/-- Every closing parenthesis closes one that is open, and every opening one is closed. -/
structure Balanced (tokens : List Token) : Prop where
  neverOvercloses : NeverOvercloses tokens
  closed : tokens.countP isOpenParen = tokens.countP isCloseParen

instance : DecidablePred NeverOvercloses := fun tokens =>
  decidable_of_iff (∀ front ∈ tokens.inits, front.countP isCloseParen ≤ front.countP isOpenParen) (by
    simp only [NeverOvercloses, List.mem_inits])

theorem balanced_iff {tokens : List Token} :
    Balanced tokens ↔
      NeverOvercloses tokens ∧ tokens.countP isOpenParen = tokens.countP isCloseParen :=
  ⟨fun ⟨never, closed⟩ => ⟨never, closed⟩, fun ⟨never, closed⟩ => ⟨never, closed⟩⟩

instance : DecidablePred Balanced := fun _ => decidable_of_iff _ balanced_iff.symm

theorem isOpenParen_iff (token : Token) :
    token.isOpenParen = true ↔ ∃ symbol, token = openParen symbol := by
  cases token <;> simp [isOpenParen]

theorem isFunction_iff (token : Token) : token.isFunction = true ↔ ∃ name, token = function name := by
  cases token <;> simp [isFunction]

theorem precedence_function (f : Function) : (Token.function f.name).precedence = 5 := by
  cases f <;> rfl

theorem precedence_binary_pos (operator : BinaryOperator) : 0 < (binary operator).precedence := by
  cases operator <;> decide

theorem precedence_factorialSign : factorialSign.precedence = 5 := rfl

end Token

/-- Evaluation knows every function among the tokens. -/
def KnowsFunctions (tokens : List Token) : Prop :=
  ∀ name, .function name ∈ tokens → ∃ f : Function, name = f.name

/-- No symbol binds tighter than the factorial. -/
theorem precedence_le (symbol : String) : precedence symbol ≤ 5 := by
  unfold precedence
  split <;> try omega
  split <;> omega

/-- Nothing binds more tightly than functions and factorials. -/
theorem Token.precedence_le (token : Token) : token.precedence ≤ 5 := by
  unfold Token.precedence
  cases token.symbol? with
  | none => exact Nat.zero_le 5
  | some symbol => exact Calculator.precedence_le symbol

end Calculator
