import Calculator.Proofs.Evaluation.Step

/-! # What a successful evaluation has counted

Two sums are kept by every step: the opening parentheses that wait are those that were taken and not
closed, and the values that wait, less those that waiting operators will use up, are the numbers that
were taken less the binary operators. A run that ends with one value and nothing waiting therefore
has balanced parentheses and one number more than it has binary operators.
-/

namespace Calculator

/-- An operator symbol uses up one value more than it gives exactly if it is binary. -/
theorem Action.consumed_operator (mode : AngleMode) (symbol : String) :
    ((Token.operator symbol).action mode).consumed = [Token.operator symbol].countP Token.isBinary := by
  change (Action.ofSymbol symbol).consumed = _
  unfold Action.ofSymbol
  split_ifs with factorial
  · subst factorial
    rfl
  · cases found : BinaryOperator.ofSymbol? symbol <;> simp [consumed, Token.isBinary, found]

namespace Stacks

variable {mode : AngleMode} {waiting later : Stacks} {values next : List Float} {token : Token}
  {operators applied rest tokens : List Token} {x : Float}

theorem consumedBy_append (first second : List Token) :
    consumedBy mode (first ++ second) = consumedBy mode first + consumedBy mode second := by
  induction first with
  | nil => simp [consumedBy]
  | cons token first ih => simp only [List.cons_append, consumedBy, ih, Nat.add_assoc]

/-- Values are used up as the applied operators say. -/
theorem length_applyAll (ran : applyAll mode values applied = .ok next) :
    next.length + consumedBy mode applied = values.length := by
  induction applied generalizing values with
  | nil =>
    cases ran
    rfl
  | cons token applied ih =>
    rw [applyAll_cons] at ran
    obtain ⟨middle, first, ran⟩ := bind_eq_ok_iff.mp ran
    rw [applyToken_eq] at first
    have step := Action.length_run first
    have later := ih ran
    rw [consumedBy]
    omega

theorem countP_isOpenParen_eq_zero (inside : ∀ top ∈ applied, top.isOpenParen = false) :
    applied.countP Token.isOpenParen = 0 :=
  List.countP_eq_zero.mpr fun top member => by simp [inside top member]

/-- A step keeps account of parentheses: what waits afterwards and was closed waited or was opened. -/
theorem Takes.parentheses (takes : Takes mode waiting token later) :
    later.operators.countP Token.isOpenParen + [token].countP Token.isCloseParen =
      waiting.operators.countP Token.isOpenParen + [token].countP Token.isOpenParen := by
  cases takes with
  | number | percent => rfl
  | wait waits =>
    have noClosing : token.isCloseParen = false := by
      cases token <;> first | rfl | simp [Token.isFunction, Token.isOpenParen] at waits
    simp [pushWaiting, List.countP_cons, noClosing]
  | @operator _ _ applied rest symbol other ran first stops =>
    have inside := countP_isOpenParen_eq_zero (isOpenParen_of_applyAll ran)
    simp [List.countP_append, inside, Token.isOpenParen, Token.isCloseParen]
  | @close _ _ applied rest opened closed ran inside uncalled =>
    simp [List.countP_append, countP_isOpenParen_eq_zero inside, List.countP_cons,
      Token.isOpenParen, Token.isCloseParen]
  | @call _ _ _ applied rest opened closed name ran inside called =>
    simp [List.countP_append, countP_isOpenParen_eq_zero inside, List.countP_cons,
      Token.isOpenParen, Token.isCloseParen]

/-- A step keeps account of operands: the values that remain when all that waits is applied. -/
theorem Takes.operands (takes : Takes mode waiting token later) :
    later.values.length + consumedBy mode waiting.operators + [token].countP Token.isBinary =
      waiting.values.length + consumedBy mode later.operators + [token].countP Token.isOperand := by
  cases takes with
  | number finite => simp [Token.isBinary, Token.isOperand]; omega
  | percent => rfl
  | wait waits =>
    rcases waits with waits | waits
    · obtain ⟨name, rfl⟩ := token.isFunction_iff.mp waits
      simp [pushWaiting, consumedBy, Token.action, Action.consumed, Token.isBinary, Token.isOperand]
    · obtain ⟨symbol, rfl⟩ := token.isOpenParen_iff.mp waits
      simp [pushWaiting, consumedBy, Token.action, Action.consumed, Token.isBinary, Token.isOperand]
  | @operator _ _ applied rest symbol other ran first stops =>
    have used := length_applyAll ran
    have own := Action.consumed_operator mode symbol
    have noOperand : [Token.operator symbol].countP Token.isOperand = 0 := rfl
    simp only [consumedBy, consumedBy_append]
    omega
  | @close _ _ applied rest opened closed ran inside uncalled =>
    have used := length_applyAll ran
    have opening : ((Token.openParen opened).action mode).consumed = 0 := rfl
    have neither : [Token.closeParen closed].countP Token.isBinary = 0 ∧
        [Token.closeParen closed].countP Token.isOperand = 0 := ⟨rfl, rfl⟩
    simp only [consumedBy, consumedBy_append]
    omega
  | @call _ _ _ applied rest opened closed name ran inside called =>
    have used := length_applyAll ran
    rw [applyToken_eq] at called
    have call := Action.length_run called
    have opening : ((Token.openParen opened).action mode).consumed = 0 := rfl
    have neither : [Token.closeParen closed].countP Token.isBinary = 0 ∧
        [Token.closeParen closed].countP Token.isOperand = 0 := ⟨rfl, rfl⟩
    simp only [consumedBy, consumedBy_append]
    omega

/-- A run keeps both accounts. -/
theorem accounts_of_feedAll (noConstant : ∀ token ∈ tokens, token.isConstant = false)
    (success : feedAll mode waiting tokens = .ok later) :
    later.operators.countP Token.isOpenParen + tokens.countP Token.isCloseParen =
        waiting.operators.countP Token.isOpenParen + tokens.countP Token.isOpenParen ∧
      later.values.length + consumedBy mode waiting.operators + tokens.countP Token.isBinary =
        waiting.values.length + consumedBy mode later.operators + tokens.countP Token.isOperand := by
  induction tokens generalizing waiting with
  | nil =>
    cases success
    simp
  | cons token tokens ih =>
    obtain ⟨first, rest⟩ := List.forall_mem_cons.mp noConstant
    rw [feedAll_cons] at success
    obtain ⟨middle, taken, success⟩ := bind_eq_ok_iff.mp success
    have takes := takes_of_feed first taken
    have parentheses := takes.parentheses
    have operands := takes.operands
    obtain ⟨laterParentheses, laterOperands⟩ := ih rest success
    rw [← List.singleton_append]
    simp only [List.countP_append]
    omega

end Stacks

section Evaluated

variable {mode : AngleMode} {tokens : List Token} {x : Float}

/-- Substituting constants changes no parenthesis. -/
theorem Token.countP_plain (property : Token → Bool)
    (same : ∀ name, property (.constant name) = property (.number Arithmetic.pi false))
    (tokens : List Token) : (tokens.map Token.plain).countP property = tokens.countP property := by
  rw [List.countP_map]
  refine List.countP_congr fun token _ => ?_
  cases token with
  | constant name => simp [Token.plain, same name]
  | _ => rfl

/-- A sequence that evaluates has balanced parentheses. -/
theorem balanced_of_evaluateTokens (success : evaluateTokens mode tokens = .ok x) :
    Token.Balanced tokens := by
  obtain ⟨-, waiting, fed, ran⟩ := Stacks.exists_run_of_evaluateTokens success
  have opens := Token.countP_plain Token.isOpenParen fun _ => rfl
  have closes := Token.countP_plain Token.isCloseParen fun _ => rfl
  constructor
  · rintro front ⟨rest, rfl⟩
    rw [List.map_append, Stacks.feedAll_append] at fed
    obtain ⟨middle, fed, -⟩ := bind_eq_ok_iff.mp fed
    have account := (Stacks.accounts_of_feedAll (Token.forall_isConstant_plain front) fed).1
    rw [opens, closes] at account
    simp only [Stacks.empty, List.countP_nil] at account
    omega
  · have account := (Stacks.accounts_of_feedAll (Token.forall_isConstant_plain tokens) fed).1
    have none := Stacks.countP_isOpenParen_eq_zero (Stacks.isOpenParen_of_applyAll ran)
    rw [opens, closes] at account
    simp only [Stacks.empty, List.countP_nil] at account
    omega

/-- A sequence that evaluates has one operand more than it has binary operators. -/
theorem operands_of_evaluateTokens (success : evaluateTokens mode tokens = .ok x) :
    tokens.countP Token.isOperand = tokens.countP Token.isBinary + 1 := by
  obtain ⟨-, waiting, fed, ran⟩ := Stacks.exists_run_of_evaluateTokens success
  have account := (Stacks.accounts_of_feedAll (Token.forall_isConstant_plain tokens) fed).2
  have remaining := Stacks.length_applyAll ran
  rw [Token.countP_plain Token.isOperand fun _ => rfl,
    Token.countP_plain Token.isBinary fun _ => rfl] at account
  simp only [Stacks.empty, Stacks.consumedBy, List.length_nil, List.length_singleton] at account remaining
  omega

end Evaluated

end Calculator
