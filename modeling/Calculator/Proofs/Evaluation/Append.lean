import Calculator.Proofs.Evaluation.Stacks

/-! # Tokens behind a finished expression

What happens when tokens follow a sequence that evaluates on its own. An operator of the loosest
level finds the value of the sequence, because everything that can be applied at all binds at least as
tightly. A number finds no operator that could join it to the sequence: one value too many remains.
-/

namespace Calculator

namespace Stacks

variable {mode : AngleMode} {waiting remaining : Stacks} {values next : List Float} {token : Token}
  {operators tokens more plain : List Token} {x : Float}

/-- Tokens behind a sequence are taken with the values of their constants in place. -/
theorem after_append_of_substitute (known : substituteConstants more = .ok plain) :
    after mode (tokens ++ more) = after mode tokens >>= fun waiting => feedAll mode waiting plain := by
  simp only [after, substituteConstants_append, known, bind_assoc]
  congr 1
  funext front
  exact feedAll_append front plain

/-- A sequence without constants goes on where the one in front of it stopped. -/
theorem after_append (known : substituteConstants more = .ok more) :
    after mode (tokens ++ more) = after mode tokens >>= fun waiting => feedAll mode waiting more :=
  after_append_of_substitute known

theorem operators_eq_nil_of_applyWhile
    (success : applyWhile mode (fun _ => true) values operators = .ok remaining) :
    remaining.operators = [] := by
  induction operators generalizing values with
  | nil =>
    cases success
    rfl
  | cons token rest ih =>
    rw [applyWhile_cons rfl, bind_eq_ok_iff] at success
    obtain ⟨next, -, success⟩ := success
    exact ih success

theorem soleValue_eq_ok_iff : soleValue values = .ok x ↔ values = [x] := by
  match values with
  | [] => simp [soleValue]
  | [y] => simp [soleValue]
  | _ :: _ :: _ => simp [soleValue]

/-- A sequence that evaluates leaves its value alone when all that waits has been applied. -/
theorem exists_after_of_evaluateTokens (success : evaluateTokens mode tokens = .ok x) :
    ∃ waiting, after mode tokens = .ok waiting ∧
      applyWhile mode (fun _ => true) waiting.values waiting.operators = .ok ⟨[x], []⟩ := by
  have nonempty : tokens ≠ [] := by
    rintro rfl
    cases success
  rw [evaluateTokens_eq nonempty, bind_eq_ok_iff] at success
  obtain ⟨waiting, fed, success⟩ := success
  obtain ⟨⟨values, operators⟩, applied, sole⟩ := bind_eq_ok_iff.mp success
  obtain rfl : operators = [] := operators_eq_nil_of_applyWhile applied
  obtain rfl : values = [x] := soleValue_eq_ok_iff.mp sole
  exact ⟨waiting, fed, applied⟩

private theorem precedence_pos_of_run {symbol : String}
    (success : (Action.ofSymbol symbol).run values = .ok next) : 0 < precedence symbol := by
  unfold Action.ofSymbol at success
  split at success
  · next factorial =>
    subst factorial
    decide
  · cases found : BinaryOperator.ofSymbol? symbol with
    | none =>
      rw [found] at success
      cases success
    | some operator =>
      obtain rfl := BinaryOperator.ofSymbol?_eq_some_iff.mp found
      exact Token.precedence_binary_pos operator

/-- What can be applied binds, and is not an opening parenthesis. -/
theorem bindsFirst_of_applyToken {operator top : Token} (loosest : operator.precedence ≤ 1)
    (success : applyToken mode top values = .ok next) : bindsFirst operator top = true := by
  rw [applyToken_eq] at success
  have binds : top.isOpenParen = false ∧ 0 < top.precedence := by
    cases top with
    | number value percent => cases success
    | openParen symbol => cases success
    | operator symbol | closeParen symbol | constant symbol =>
      exact ⟨rfl, precedence_pos_of_run success⟩
    | function name =>
      refine ⟨rfl, ?_⟩
      obtain ⟨popped, -, success⟩ := bind_eq_ok_iff.mp success
      obtain ⟨called, call, -⟩ := bind_eq_ok_iff.mp success
      cases found : Function.ofName? name with
      | none => simp [callByName, found] at call
      | some f =>
        obtain rfl := Function.ofName?_eq_some_iff.mp found
        rw [Token.precedence_function]
        decide
  have tight : operator.precedence ≤ top.precedence := Nat.le_trans loosest binds.2
  simp [bindsFirst, binds.1, tight]

/-- An operator of the loosest level applies all that waits, if it can be applied. -/
theorem applyWhile_bindsFirst {operator : Token} (loosest : operator.precedence ≤ 1)
    (success : applyWhile mode (fun _ => true) values operators = .ok remaining) :
    applyWhile mode (bindsFirst operator) values operators = .ok remaining := by
  induction operators generalizing values with
  | nil => exact success
  | cons top rest ih =>
    rw [applyWhile_cons rfl] at success
    obtain ⟨next, applied, success⟩ := bind_eq_ok_iff.mp success
    rw [applyWhile_cons (bindsFirst_of_applyToken loosest applied), applied]
    exact ih success

theorem popValue_eq_ok_iff {symbol : String} {rest : List Float} :
    popValue symbol values = .ok (x, rest) ↔ values = x :: rest := by
  cases values with
  | nil => simp [popValue, throw, throwThe, MonadExceptOf.throw]
  | cons y values => simp [popValue, pure, Except.pure]

end Stacks

/-- How many values fewer there are after an action. -/
def Action.consumed : Action → Nat
  | refuse _ | unary .. => 0
  | binary .. => 1

section Run

variable {values next : List Float} {symbol : String}

/-- A unary action replaces the top value by its result. -/
theorem Action.run_unary_eq_ok_iff {compute : Float → Except Failure Float} :
    (Action.unary symbol compute).run values = .ok next ↔
      ∃ x rest result, values = x :: rest ∧ compute x = .ok result ∧ next = result :: rest := by
  constructor
  · intro success
    obtain ⟨⟨x, rest⟩, popped, ran⟩ := bind_eq_ok_iff.mp success
    obtain ⟨result, computed, pushed⟩ := bind_eq_ok_iff.mp ran
    cases pushed
    exact ⟨x, rest, result, Stacks.popValue_eq_ok_iff.mp popped, computed, rfl⟩
  · rintro ⟨x, rest, result, rfl, computed, rfl⟩
    change compute x >>= _ = _
    rw [computed]
    rfl

/-- A binary action replaces the two top values by its result; the top one is the right operand. -/
theorem Action.run_binary_eq_ok_iff {compute : Float → Float → Except Failure Float} :
    (Action.binary symbol compute).run values = .ok next ↔
      ∃ a b rest result, values = b :: a :: rest ∧ compute a b = .ok result ∧
        next = result :: rest := by
  constructor
  · intro success
    obtain ⟨⟨b, others⟩, popped, ran⟩ := bind_eq_ok_iff.mp success
    obtain ⟨⟨a, rest⟩, poppedNext, ranNext⟩ := bind_eq_ok_iff.mp ran
    obtain ⟨result, computed, pushed⟩ := bind_eq_ok_iff.mp ranNext
    obtain rfl := Stacks.popValue_eq_ok_iff.mp popped
    obtain rfl := Stacks.popValue_eq_ok_iff.mp poppedNext
    cases pushed
    exact ⟨a, b, rest, result, rfl, computed, rfl⟩
  · rintro ⟨a, b, rest, result, rfl, computed, rfl⟩
    change compute a b >>= _ = _
    rw [computed]
    rfl

/-- An action uses up as many values as it says. -/
theorem Action.length_run {action : Action} (success : action.run values = .ok next) :
    next.length + action.consumed = values.length := by
  cases action with
  | refuse error => cases success
  | unary symbol compute =>
    obtain ⟨x, rest, result, rfl, -, rfl⟩ := run_unary_eq_ok_iff.mp success
    rfl
  | binary symbol compute =>
    obtain ⟨a, b, rest, result, rfl, -, rfl⟩ := run_binary_eq_ok_iff.mp success
    rfl

/-- An action does not look below its operands. -/
theorem Action.run_append {action : Action} (success : action.run values = .ok next)
    (below : List Float) : action.run (values ++ below) = .ok (next ++ below) := by
  cases action with
  | refuse error => cases success
  | unary symbol compute =>
    obtain ⟨x, rest, result, rfl, computed, rfl⟩ := run_unary_eq_ok_iff.mp success
    exact run_unary_eq_ok_iff.mpr ⟨x, rest ++ below, result, rfl, computed, rfl⟩
  | binary symbol compute =>
    obtain ⟨a, b, rest, result, rfl, computed, rfl⟩ := run_binary_eq_ok_iff.mp success
    exact run_binary_eq_ok_iff.mpr ⟨a, b, rest ++ below, result, rfl, computed, rfl⟩

end Run

namespace Stacks

variable {mode : AngleMode} {remaining : Stacks} {values : List Float} {operators : List Token}

/-- How many values fewer there are when all that waits has been applied. -/
def consumedBy (mode : AngleMode) : List Token → Nat
  | [] => 0
  | token :: rest => (token.action mode).consumed + consumedBy mode rest

theorem length_applyWhile
    (success : applyWhile mode (fun _ => true) values operators = .ok remaining) :
    remaining.values.length + consumedBy mode operators = values.length := by
  induction operators generalizing values with
  | nil =>
    cases success
    rfl
  | cons token rest ih =>
    rw [applyWhile_cons rfl] at success
    obtain ⟨next, applied, success⟩ := bind_eq_ok_iff.mp success
    rw [applyToken_eq] at applied
    have step := Action.length_run applied
    have later := ih success
    rw [consumedBy]
    omega

end Stacks

variable {mode : AngleMode} {tokens : List Token} {a x : Float}

/-- A loosest operator and a number behind a sequence combine its value with the number. -/
theorem evaluateTokens_append_binary {operator : BinaryOperator}
    (loosest : (Token.binary operator).precedence ≤ 1)
    (success : evaluateTokens mode tokens = .ok a) (finite : x.isFinite = true) :
    evaluateTokens mode (tokens ++ [.binary operator, .number x false]) =
      Arithmetic.binary operator a x := by
  obtain ⟨⟨values, operators⟩, fed, applied⟩ := Stacks.exists_after_of_evaluateTokens success
  have pushed : (⟨values, operators⟩ : Stacks).pushOperator mode (.binary operator) =
      .ok ⟨[a], [.binary operator]⟩ := by
    rw [Stacks.pushOperator_eq, Stacks.applyWhile_bindsFirst loosest applied]
    rfl
  have number : Stacks.feed mode ⟨[a], [.binary operator]⟩ (.number x false) =
      .ok ⟨[x, a], [.binary operator]⟩ := by
    rw [Stacks.feed, Stacks.pushNumber, Token.value, if_pos finite]
    rfl
  have fedAll : Stacks.feedAll mode ⟨values, operators⟩ [.binary operator, .number x false] =
      .ok ⟨[x, a], [.binary operator]⟩ := by
    rw [Stacks.feedAll_cons, Stacks.feed_binary, pushed, ok_bind, Stacks.feedAll_singleton, number]
  rw [evaluateTokens_eq (by simp), Stacks.after_append rfl, fed, ok_bind, fedAll, ok_bind,
    Stacks.result, Stacks.applyWhile_cons rfl, Stacks.applyToken_binary, bind_assoc, bind_assoc]
  exact bind_pure _

/-- A number behind a sequence is left over. -/
theorem evaluateTokens_append_number (success : evaluateTokens mode tokens = .ok a)
    (percent : Bool) (result : Float) :
    evaluateTokens mode (tokens ++ [.number x percent]) ≠ .ok result := by
  intro extended
  obtain ⟨⟨values, operators⟩, fed, applied⟩ := Stacks.exists_after_of_evaluateTokens success
  obtain ⟨later, pushed, appliedLater⟩ := Stacks.exists_after_of_evaluateTokens extended
  rw [Stacks.after_append rfl, fed, ok_bind, Stacks.feedAll_singleton] at pushed
  have more : ∃ y, later = ⟨y :: values, operators⟩ := by
    rw [Stacks.feed, Stacks.pushNumber] at pushed
    split at pushed
    · cases pushed
      exact ⟨_, rfl⟩
    · cases pushed
  obtain ⟨y, rfl⟩ := more
  have before := Stacks.length_applyWhile applied
  have behind := Stacks.length_applyWhile appliedLater
  simp only [List.length_cons, List.length_nil] at before behind
  omega

end Calculator
