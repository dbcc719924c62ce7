import Calculator.Evaluation
import Calculator.Proofs.Outcome
import Calculator.Proofs.Token
import Mathlib.Data.List.Basic

/-! # Laws of the two stacks

One law for each operation of evaluation, for tokens whose symbols are known. Later arguments run a
token sequence through these laws and never open an operation: `Stacks.feedAll` takes a sequence
apart at any place, and `evaluateTokens` is one run over it from empty stacks.
-/

namespace Calculator

/-- What applying a token does with the values. -/
inductive Action where
  | refuse (error : EvalError)
  | unary (symbol : String) (compute : Float → Except Failure Float)
  | binary (symbol : String) (compute : Float → Float → Except Failure Float)

/-- Takes the operands of an action, the last one first, and puts its result in their place. -/
def Action.run (values : List Float) : Action → Except Failure (List Float)
  | refuse error => .error (.reported error)
  | unary symbol compute =>
      Stacks.popValue symbol values >>= fun (x, rest) =>
        compute x >>= fun result => .ok (result :: rest)
  | binary symbol compute =>
      Stacks.popValue symbol values >>= fun (b, rest) =>
        Stacks.popValue symbol rest >>= fun (a, rest) =>
          compute a b >>= fun result => .ok (result :: rest)

/-- The call of a function by its name. -/
def callByName (mode : AngleMode) (name : String) (x : Float) : Except Failure Float :=
  match Function.ofName? name with
  | none => .error (.reported (.unknownFunction name))
  | some f => Arithmetic.call mode f x

/-- The action of a symbol, whatever the kind of the token that carries it. -/
def Action.ofSymbol (symbol : String) : Action :=
  if symbol = "!" then .unary "!" Arithmetic.factorial
  else match BinaryOperator.ofSymbol? symbol with
    | none => .refuse (.unsupportedOperator symbol)
    | some operator => .binary symbol (Arithmetic.binary operator)

/-- The action of a token. -/
def Token.action (mode : AngleMode) : Token → Action
  | .number .. => .refuse (.unsupportedOperator none)
  | .openParen _ => .refuse .unclosedParenthesis
  | .function name => .unary name (callByName mode name)
  | .operator symbol | .closeParen symbol | .constant symbol => .ofSymbol symbol

namespace Stacks

variable {mode : AngleMode} {values : List Float} {waiting : Stacks} {token : Token}
  {operators : List Token} {condition : Token → Bool}

/-- Takes the tokens of a sequence in their order. -/
def feedAll (mode : AngleMode) (waiting : Stacks) (tokens : List Token) : Except Failure Stacks :=
  tokens.foldlM (feed mode) waiting

theorem feedAll_nil : feedAll mode waiting [] = .ok waiting := rfl

theorem feedAll_cons (tokens : List Token) :
    feedAll mode waiting (token :: tokens) =
      feed mode waiting token >>= fun next => feedAll mode next tokens := by
  simp only [feedAll, List.foldlM_cons]

@[simp] theorem feedAll_singleton : feedAll mode waiting [token] = feed mode waiting token := by
  rw [feedAll_cons]
  exact bind_pure _

theorem feedAll_append (first second : List Token) :
    feedAll mode waiting (first ++ second) =
      feedAll mode waiting first >>= fun middle => feedAll mode middle second := by
  simp only [feedAll, List.foldlM_append]

/-- An operator that satisfies the condition is applied first. -/
theorem applyWhile_cons (holds : condition token = true) :
    applyWhile mode condition values (token :: operators) =
      applyToken mode token values >>= fun next => applyWhile mode condition next operators := by
  rw [applyWhile, if_pos holds]

/-- Nothing is applied if the top operator does not satisfy the condition. -/
theorem applyWhile_stop (fails : ∀ top ∈ operators.head?, condition top = false) :
    applyWhile mode condition values operators = .ok ⟨values, operators⟩ := by
  cases operators with
  | nil => rfl
  | cons top rest =>
    have stops : condition top = false := fails top rfl
    rw [applyWhile, if_neg (by simp [stops])]
    rfl

private theorem applyToken_operator (mode : AngleMode) (symbol : String) (values : List Float) :
    applyToken mode (.operator symbol) values = (Action.ofSymbol symbol).run values := by
  unfold Action.ofSymbol
  by_cases factorial : symbol = "!"
  · subst factorial
    rfl
  · rw [if_neg factorial, applyToken]
    · simp only [Token.symbol?]
      cases BinaryOperator.ofSymbol? symbol <;> rfl
    all_goals simp

/-- Applying a token is running its action. -/
theorem applyToken_eq (token : Token) (values : List Float) :
    applyToken mode token values = (token.action mode).run values := by
  cases token with
  | number value percent => rfl
  | openParen symbol => rfl
  | function name =>
    cases values with
    | nil => rfl
    | cons x rest =>
      simp only [applyToken, popValue, Token.action, Action.run, callByName]
      cases Function.ofName? name <;> rfl
  | operator symbol => exact applyToken_operator mode symbol values
  | closeParen symbol => exact applyToken_operator mode symbol values
  | constant symbol => exact applyToken_operator mode symbol values

theorem applyToken_function (f : Function) (x : Float) :
    applyToken mode (.function f.name) (x :: values) =
      Arithmetic.call mode f x >>= fun result => .ok (result :: values) := by
  simp [applyToken, popValue, pure, Except.pure, bind, Except.bind]

theorem applyToken_factorialSign (x : Float) :
    applyToken mode Token.factorialSign (x :: values) =
      Arithmetic.factorial x >>= fun result => .ok (result :: values) := by
  rfl

theorem applyToken_binary (operator : BinaryOperator) (a b : Float) :
    applyToken mode (Token.binary operator) (b :: a :: values) =
      Arithmetic.binary operator a b >>= fun result => .ok (result :: values) := by
  cases operator <;> rfl

theorem feed_closing : feed mode waiting .closing = waiting.closeGroup mode := rfl

theorem feed_factorialSign :
    feed mode waiting Token.factorialSign = waiting.pushOperator mode Token.factorialSign := rfl

theorem feed_binary (operator : BinaryOperator) :
    feed mode waiting (Token.binary operator) =
      waiting.pushOperator mode (Token.binary operator) := by
  cases operator <;> rfl

/-- Whether an operator that waits is applied before `token` waits itself. -/
def bindsFirst (token top : Token) : Bool := !top.isOpenParen && token.precedence ≤ top.precedence

/-- An operator applies what binds first and then waits. -/
theorem pushOperator_eq :
    waiting.pushOperator mode token =
      applyWhile mode (bindsFirst token) waiting.values waiting.operators >>= fun next =>
        .ok (next.pushWaiting token) := rfl

/-- Closing a group applies its operators, drops its parenthesis and calls a function in front of it. -/
theorem closeGroup_eq (waiting : Stacks) :
    waiting.closeGroup mode =
      applyWhile mode (fun top => !top.isOpenParen) waiting.values waiting.operators >>= fun inner =>
        match inner.operators with
        | [] => .error (.reported .unopenedParenthesis)
        | _ :: outer =>
            if outer.head?.any Token.isFunction then applyTop mode ⟨inner.values, outer⟩
            else .ok ⟨inner.values, outer⟩ := rfl

/-- The value that remains when nothing waits any more. -/
def soleValue : List Float → Except Failure Float
  | [value] => .ok value
  | _ => .error (.reported .leftoverOperands)

/-- The stacks after the last token of a sequence, before all that waits is applied. -/
def after (mode : AngleMode) (tokens : List Token) : Except Failure Stacks :=
  substituteConstants tokens >>= feedAll mode .empty

/-- The value of stacks after the last token. -/
def result (mode : AngleMode) (waiting : Stacks) : Except Failure Float :=
  applyWhile mode (fun _ => true) waiting.values waiting.operators >>= fun remaining =>
    soleValue remaining.values

/-- Finishing applies everything and takes the sole value. -/
theorem finish_eq :
    (fun finished => finished.1) <$> waiting.finish mode = waiting.result mode := by
  rw [finish, result, map_bind]
  congr 1
  funext ⟨values, operators⟩
  match values with
  | [] => rfl
  | [value] => rfl
  | _ :: _ :: _ => rfl

end Stacks

/-- The token with the value of a constant in its place. -/
def Token.plain : Token → Token
  | .constant _ => .number Arithmetic.pi false
  | token => token

theorem substituteConstants_append (first second : List Token) :
    substituteConstants (first ++ second) =
      substituteConstants first >>= fun left => (left ++ ·) <$> substituteConstants second := by
  simp only [substituteConstants, List.mapM_append, bind_pure_comp]

/-- Constants can be substituted wherever π is the only one. -/
theorem substituteConstants_eq {tokens : List Token}
    (known : ∀ name, Token.constant name ∈ tokens → name = "π") :
    substituteConstants tokens = .ok (tokens.map Token.plain) := by
  induction tokens with
  | nil => rfl
  | cons token tokens ih =>
    have rest := ih fun name member => known name (List.mem_cons_of_mem _ member)
    have first : substituteConstant token = .ok token.plain := by
      cases token with
      | constant name =>
        obtain rfl := known name (List.mem_cons_self ..)
        rfl
      | _ => rfl
    rw [substituteConstants, List.mapM_cons, first, ← substituteConstants, rest]
    rfl

/-- Substitution succeeds exactly where π is the only constant, and then puts its value in. -/
theorem substituteConstants_eq_ok_iff {tokens plain : List Token} :
    substituteConstants tokens = .ok plain ↔
      (∀ name, Token.constant name ∈ tokens → name = "π") ∧ plain = tokens.map Token.plain := by
  constructor
  · intro success
    induction tokens generalizing plain with
    | nil =>
      cases success
      simp
    | cons token tokens ih =>
      rw [substituteConstants, List.mapM_cons] at success
      obtain ⟨first, substituted, success⟩ := bind_eq_ok_iff.mp success
      obtain ⟨rest, later, joined⟩ := bind_eq_ok_iff.mp success
      obtain ⟨known, rfl⟩ := ih later
      cases joined
      cases token with
      | constant name =>
        simp only [substituteConstant, Arithmetic.constant?] at substituted
        split_ifs at substituted with isPi
        cases substituted
        refine ⟨fun other member => ?_, rfl⟩
        rcases List.mem_cons.mp member with same | member
        · exact (Token.constant.inj same).trans isPi
        · exact known other member
      | _ =>
        cases substituted
        exact ⟨by simpa using known, rfl⟩
  · rintro ⟨known, rfl⟩
    exact substituteConstants_eq known

theorem evaluateTokens_nil (mode : AngleMode) :
    evaluateTokens mode [] = .error (.reported .emptyExpression) := rfl

/-- Evaluation is one run from empty stacks, after which all that waits is applied. -/
theorem evaluateTokens_eq {mode : AngleMode} {tokens : List Token} (nonempty : tokens ≠ []) :
    evaluateTokens mode tokens = Stacks.after mode tokens >>= Stacks.result mode := by
  have someToken : tokens.isEmpty = false := by simpa using nonempty
  rw [evaluateTokens, someToken, Stacks.after, bind_assoc]
  change (substituteConstants tokens >>= fun plain =>
    Stacks.feedAll mode .empty plain >>= fun waiting =>
      waiting.finish mode >>= fun finished => pure finished.1) = _
  simp only [bind_pure_comp, Stacks.finish_eq]

end Calculator
