import Calculator.Proofs.Evaluation.Stacks

/-! # Expression trees

The grammar of expressions as a family of trees, one type for each level of precedence. An operator
joins a left operand of its own level and a tighter right operand, so equal operators associate to
the left. `Expression.tokens` writes a tree as a token sequence; `Expression.value` evaluates it
recursively, operands from left to right and then the operation.
-/

namespace Calculator

/-- The levels of precedence, from the loosest to the tightest. -/
inductive Level where
  | sum
  | term
  | power
  | factor
  | primary
deriving DecidableEq

namespace Level

/-- The next tighter level. Nothing is tighter than a primary. -/
def tighter : Level → Level
  | sum => term
  | term => power
  | power => factor
  | factor | primary => primary

/-- The least precedence among the operators that may wait inside an expression of the level. A
primary leaves none, so its bound is above every precedence. -/
def bound : Level → Nat
  | sum => 1
  | term => 2
  | power => 4
  | factor => 5
  | primary => 6

theorem bound_le_tighter (level : Level) : level.bound ≤ level.tighter.bound := by
  cases level <;> decide

end Level

namespace BinaryOperator

/-- The level of the expressions that an operator forms. -/
def level : BinaryOperator → Level
  | plus | minus => .sum
  | times | divide | modulo => .term
  | power => .power

theorem bound_lt_tighter (operator : BinaryOperator) :
    operator.level.bound < operator.level.tighter.bound := by
  cases operator <;> decide

end BinaryOperator

theorem Token.precedence_binary (operator : BinaryOperator) :
    (Token.binary operator).precedence = operator.level.bound := by
  cases operator <;> rfl

/-- An expression of a level. Every tighter expression is also one of the level. -/
inductive Expression : Level → Type where
  | number (x : Float) (marked : Bool) : Expression .primary
  | pi : Expression .primary
  | group (inner : Expression .sum) : Expression .primary
  | call (f : Function) (argument : Expression .sum) : Expression .primary
  | percent (operand : Expression .primary) : Expression .primary
  | factorial (operand : Expression .factor) : Expression .factor
  | binary (operator : BinaryOperator) (left : Expression operator.level)
      (right : Expression operator.level.tighter) : Expression operator.level
  | tight {level : Level} (loose : level ≠ .primary) (operand : Expression level.tighter) :
      Expression level

namespace Expression

/-- The token sequence of an expression, with every product written. -/
def tokens : {level : Level} → Expression level → List Token
  | _, number x marked => [.number x marked]
  | _, pi => [.pi]
  | _, group inner => .opening :: inner.tokens ++ [.closing]
  | _, call f argument => .function f.name :: .opening :: argument.tokens ++ [.closing]
  | _, percent operand => operand.tokens ++ [.percentSign]
  | _, factorial operand => operand.tokens ++ [.factorialSign]
  | _, binary operator left right => left.tokens ++ .binary operator :: right.tokens
  | _, tight _ operand => operand.tokens

/-- The value of an expression. The first step that fails decides how the whole fails. -/
def value (mode : AngleMode) : {level : Level} → Expression level → Except Failure Float
  | _, number x marked =>
      if x.isFinite then return if marked then Arithmetic.hundredth x else x
      else throw (.reported .numberTooLarge)
  | _, pi => return Arithmetic.pi
  | _, group inner => inner.value mode
  | _, call f argument => do Arithmetic.call mode f (← argument.value mode)
  | _, percent operand => return Arithmetic.hundredth (← operand.value mode)
  | _, factorial operand => do Arithmetic.factorial (← operand.value mode)
  | _, binary operator left right => do
      let a ← left.value mode
      let b ← right.value mode
      Arithmetic.binary operator a b
  | _, tight _ operand => operand.value mode

-- Every lemma about trees needs these equations; they are made here, once, and not by each of them.
attribute [local simp] tokens value

theorem tokens_ne_nil : {level : Level} → (expression : Expression level) → expression.tokens ≠ []
  | _, number .. | _, pi | _, group _ | _, call .. => by simp [tokens]
  | _, percent _ | _, factorial _ | _, binary .. => by simp [tokens]
  | _, tight _ operand => tokens_ne_nil operand

/-- An expression names no constant but π. -/
theorem constant_mem_tokens {level : Level} (expression : Expression level) {name : String}
    (member : Token.constant name ∈ expression.tokens) : name = "π" := by
  induction expression with
  | number x marked => simp [tokens] at member
  | pi => simpa [tokens, Token.pi] using member
  | group inner ih | call f inner ih =>
    exact ih (by simpa [tokens, Token.opening, Token.closing] using member)
  | percent operand ih | factorial operand ih =>
    exact ih (by simpa [tokens, Token.percentSign, Token.factorialSign] using member)
  | binary operator left right leftIh rightIh =>
    have split : Token.constant name ∈ left.tokens ∨ Token.constant name ∈ right.tokens := by
      simpa [tokens, Token.binary] using member
    exact split.elim leftIh rightIh
  | tight loose operand ih => exact ih member

end Expression

end Calculator
