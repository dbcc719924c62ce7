import Calculator.Proofs.Evaluation.Expression

/-! # Agreement of the two stacks with the trees

Operators of an expression may still wait when its last token has been taken, so an expression does
not leave its value behind. What holds is that once all that binds as tightly as its level has been
applied, the stacks are those from before with the value on top, and a step that fails is the one
the tree meets first. `Expression.Runs` states this for every condition under which
operators are applied; the grammar's productions then follow from it one by one.
-/

namespace Calculator

/-- Whether the operators that wait allow an expression of the level on top of them: the innermost
group was just opened, or the top operator binds looser than the level. -/
def Level.FitsOn (level : Level) (operators : List Token) : Prop :=
  ∀ top ∈ operators.head?,
    top.isOpenParen = true ∨ top.isFunction = false ∧ top.precedence < level.bound

/-- Whether a condition applies every operator that may wait inside an expression of the level. -/
def Level.AppliedUnder (level : Level) (condition : Token → Bool) : Prop :=
  ∀ token : Token, token.isOpenParen = false → level.bound ≤ token.precedence →
    condition token = true

namespace Level

variable {level : Level} {operators : List Token} {condition : Token → Bool}

theorem FitsOn.tighter (fits : level.FitsOn operators) : level.tighter.FitsOn operators := by
  intro top member
  have le := level.bound_le_tighter
  refine (fits top member).imp id fun ⟨noFunction, looser⟩ => ⟨noFunction, by omega⟩

theorem fitsOn_nil : level.FitsOn [] := by simp [FitsOn]

theorem fitsOn_opening : level.FitsOn (.opening :: operators) := by
  simp [FitsOn, Token.opening, Token.isOpenParen]

theorem fitsOn_binary (operator : BinaryOperator) :
    operator.level.tighter.FitsOn (Token.binary operator :: operators) := by
  intro top member
  obtain rfl : Token.binary operator = top := by simpa using member
  refine .inr ⟨rfl, ?_⟩
  rw [Token.precedence_binary]
  exact operator.bound_lt_tighter

theorem AppliedUnder.tighter (applied : level.AppliedUnder condition) :
    level.tighter.AppliedUnder condition := by
  intro token closed tight
  exact applied token closed (Nat.le_trans level.bound_le_tighter tight)

/-- An operator that binds at most as tightly as a level applies what waits inside the level. -/
theorem appliedUnder_bindsFirst {token : Token} (looser : token.precedence ≤ level.bound) :
    level.AppliedUnder (Stacks.bindsFirst token) := by
  intro top closed tight
  simp only [Stacks.bindsFirst, closed, Bool.not_false, Bool.true_and, decide_eq_true_eq]
  omega

theorem appliedUnder_closing : level.AppliedUnder (fun top => !top.isOpenParen) := by
  intro top closed _
  simp [closed]

/-- Nothing waits inside a primary. -/
theorem appliedUnder_primary : primary.AppliedUnder condition := by
  intro token _ tight
  have atMost := token.precedence_le
  simp only [bound] at tight
  omega

theorem FitsOn.noFunction (fits : level.FitsOn operators) :
    operators.head?.any Token.isFunction = false := by
  cases operators with
  | nil => rfl
  | cons top rest =>
    rcases fits top rfl with opened | ⟨noFunction, -⟩
    · cases top <;> first | rfl | contradiction
    · exact noFunction

/-- The operator below an expression stays where an operator of the expression's level arrives. -/
theorem FitsOn.stops {token : Token} (fits : level.FitsOn operators)
    (same : token.precedence = level.bound) :
    ∀ top ∈ operators.head?, Stacks.bindsFirst token top = false := by
  intro top member
  rcases fits top member with opened | ⟨-, looser⟩
  · simp [Stacks.bindsFirst, opened]
  · have below : ¬ token.precedence ≤ top.precedence := by omega
    simp [Stacks.bindsFirst, below]

end Level

namespace Expression

open Stacks

variable {mode : AngleMode} {level : Level} {values : List Float} {below : List Token}

/-- Applying all that waits inside an expression leaves its value on the stacks from before. -/
def Runs (mode : AngleMode) (expression : Expression level) : Prop :=
  ∀ (values : List Float) (below : List Token) (condition : Token → Bool),
    level.FitsOn below → level.AppliedUnder condition →
      (feedAll mode ⟨values, below⟩ (expression.tokens.map Token.plain) >>= fun waiting =>
        applyWhile mode condition waiting.values waiting.operators) =
      expression.value mode >>= fun x => applyWhile mode condition (x :: values) below

/-- Nothing waits inside the expression once its last token has been taken. -/
def LeavesValue (mode : AngleMode) (expression : Expression level) : Prop :=
  ∀ (values : List Float) (below : List Token), level.FitsOn below →
    feedAll mode ⟨values, below⟩ (expression.tokens.map Token.plain) =
      expression.value mode >>= fun x => .ok ⟨x :: values, below⟩

/-- A value that is on the stack already does not mind what is applied afterwards. -/
theorem LeavesValue.runs {expression : Expression level} (leaves : expression.LeavesValue mode) :
    expression.Runs mode := by
  intro values below condition fits _
  rw [leaves values below fits, bind_assoc]
  rfl

/-- Inside a primary nothing waits. -/
theorem Runs.leavesValue {expression : Expression .primary} (runs : expression.Runs mode) :
    expression.LeavesValue mode := by
  intro values below fits
  have applied := runs values below (fun _ => false) fits Level.appliedUnder_primary
  -- No operator satisfies the condition, so neither side applies anything.
  have stops (waiting : Stacks) :
      applyWhile mode (fun _ => false) waiting.values waiting.operators = .ok waiting :=
    applyWhile_stop (by simp)
  have same (x : Float) : applyWhile mode (fun _ => false) (x :: values) below =
      .ok ⟨x :: values, below⟩ := stops ⟨x :: values, below⟩
  simp only [stops, same] at applied
  exact (bind_pure _).symm.trans applied

/-- An operator of the level that arrives after an expression finds its value, and waits on it. -/
theorem Runs.pushOperator {expression : Expression level} (runs : expression.Runs mode)
    (values : List Float) (fits : level.FitsOn below) {token : Token}
    (same : token.precedence = level.bound) :
    (feedAll mode ⟨values, below⟩ (expression.tokens.map Token.plain) >>= fun waiting =>
      waiting.pushOperator mode token) =
    expression.value mode >>= fun x => .ok ⟨x :: values, token :: below⟩ := by
  have applied := runs values below (bindsFirst token) fits
    (Level.appliedUnder_bindsFirst (Nat.le_of_eq same))
  simp only [pushOperator_eq, ← bind_assoc, applied]
  simp only [bind_assoc]
  congr 1
  funext x
  rw [applyWhile_stop (fits.stops same)]
  rfl

/-- A closing parenthesis after an expression leaves its value and closes the group. -/
theorem Runs.closeGroup {expression : Expression .sum} (runs : expression.Runs mode)
    (values : List Float) (below : List Token) :
    (feedAll mode ⟨values, .opening :: below⟩ (expression.tokens.map Token.plain) >>= fun waiting =>
      waiting.closeGroup mode) =
    expression.value mode >>= fun x =>
      if below.head?.any Token.isFunction then applyTop mode ⟨x :: values, below⟩
      else .ok ⟨x :: values, below⟩ := by
  have applied := runs values (.opening :: below) _ Level.fitsOn_opening Level.appliedUnder_closing
  simp only [closeGroup_eq, ← bind_assoc, applied]
  simp only [bind_assoc]
  congr 1

theorem leavesValue_number (x : Float) (marked : Bool) : (number x marked).LeavesValue mode := by
  intro values below _
  simp only [tokens, List.map_cons, List.map_nil, Token.plain, feedAll_singleton]
  rw [feed, pushNumber, Token.value, value]
  split <;> rfl

theorem leavesValue_pi : pi.LeavesValue mode := by
  intro values below _
  have finite : Arithmetic.pi.isFinite = true := by decide +kernel
  simp only [tokens, List.map_cons, List.map_nil, Token.pi, Token.plain, feedAll_singleton]
  rw [feed, pushNumber, Token.value, if_pos finite]
  rfl

/-- The closing parenthesis applies what waits inside the group, and nothing else. -/
theorem leavesValue_group {inner : Expression .sum} (runs : inner.Runs mode) :
    (group inner).LeavesValue mode := by
  intro values below fits
  have closes := runs.closeGroup values below
  simp only [fits.noFunction, Bool.false_eq_true, if_false] at closes
  simp only [tokens, List.map_cons, List.map_append, List.map_nil, List.cons_append]
  rw [feedAll_cons]
  change feedAll mode ⟨values, .opening :: below⟩ (_ ++ [Token.closing]) = _
  simpa only [feedAll_append, feedAll_singleton, feed_closing, value] using closes

/-- The function waits below its group, and the closing parenthesis calls it. -/
theorem leavesValue_call {f : Function} {argument : Expression .sum} (runs : argument.Runs mode) :
    (call f argument).LeavesValue mode := by
  intro values below _
  have closes := runs.closeGroup values (.function f.name :: below)
  simp only [tokens, List.map_cons, List.map_append, List.map_nil, List.cons_append]
  rw [feedAll_cons]
  change (feedAll mode ⟨values, .function f.name :: below⟩ (.opening :: _)) = _
  rw [feedAll_cons]
  change feedAll mode ⟨values, .opening :: .function f.name :: below⟩ (_ ++ [Token.closing]) = _
  simp only [feedAll_append, feedAll_singleton, feed_closing]
  refine closes.trans ?_
  simp only [value, bind_assoc]
  congr 1
  funext x
  change (applyToken mode (.function f.name) (x :: values) >>= _) = _
  rw [applyToken_function, bind_assoc]
  rfl

/-- A percent sign acts at once, so it needs an operand inside which nothing waits. -/
theorem leavesValue_percent {operand : Expression .primary} (leaves : operand.LeavesValue mode) :
    (percent operand).LeavesValue mode := by
  intro values below fits
  simp only [tokens, List.map_append, List.map_cons, List.map_nil, feedAll_append]
  rw [leaves values below fits, bind_assoc, value, bind_assoc]
  rfl

/-- A factorial waits behind its operand until something is applied that binds as tightly. -/
theorem runs_factorial {operand : Expression .factor} (runs : operand.Runs mode) :
    (factorial operand).Runs mode := by
  intro values below condition fits applied
  have pushed := runs.pushOperator values fits Token.precedence_factorialSign
  simp only [tokens, List.map_append, List.map_cons, List.map_nil, feedAll_append]
  change ((_ >>= fun middle => feedAll mode middle [Token.factorialSign]) >>= _) = _
  simp only [feedAll_singleton, feed_factorialSign, pushed, value, bind_assoc]
  congr 1
  funext x
  change applyWhile mode condition (x :: values) (Token.factorialSign :: below) = _
  have now : condition Token.factorialSign = true := applied _ rfl (by decide)
  rw [applyWhile_cons now, applyToken_factorialSign, bind_assoc]
  rfl

/-- A binary operator applies its left operand before it waits, and is applied after its right one. -/
theorem runs_binary {operator : BinaryOperator} {left : Expression operator.level}
    {right : Expression operator.level.tighter} (leftRuns : left.Runs mode)
    (rightRuns : right.Runs mode) : (binary operator left right).Runs mode := by
  intro values below condition fits applied
  have pushed := leftRuns.pushOperator values fits (Token.precedence_binary operator)
  simp only [tokens, List.map_append, List.map_cons, feedAll_append, feedAll_cons]
  change ((_ >>= fun middle => feed mode middle (Token.binary operator) >>= _) >>= _) = _
  simp only [feed_binary, ← bind_assoc, pushed]
  simp only [value, bind_assoc]
  congr 1
  funext a
  change (feedAll mode ⟨a :: values, Token.binary operator :: below⟩ _ >>= _) = _
  rw [rightRuns _ _ condition (Level.fitsOn_binary operator) applied.tighter]
  congr 1
  funext b
  have now : condition (Token.binary operator) = true :=
    applied _ rfl (Nat.le_of_eq (Token.precedence_binary operator).symm)
  rw [applyWhile_cons now, applyToken_binary, bind_assoc]
  rfl

/-- An expression of a tighter level stands for itself. -/
theorem runs_tight (loose : level ≠ .primary) {operand : Expression level.tighter}
    (runs : operand.Runs mode) : (tight loose operand).Runs mode :=
  fun values below condition fits applied =>
    runs values below condition fits.tighter applied.tighter

/-- Every expression runs as its tree is evaluated. -/
theorem runs (mode : AngleMode) (expression : Expression level) : expression.Runs mode := by
  induction expression with
  | number x marked => exact (leavesValue_number x marked).runs
  | pi => exact leavesValue_pi.runs
  | group inner ih => exact (leavesValue_group ih).runs
  | call f argument ih => exact (leavesValue_call ih).runs
  | percent operand ih => exact (leavesValue_percent ih.leavesValue).runs
  | factorial operand ih => exact runs_factorial ih
  | binary operator left right leftIh rightIh => exact runs_binary leftIh rightIh
  | tight loose operand ih => exact runs_tight loose ih

/-- Two stacks and recursion give an expression the same value, or the same failure. -/
theorem evaluateTokens_tokens (mode : AngleMode) (expression : Expression level) :
    evaluateTokens mode expression.tokens = expression.value mode := by
  have known := substituteConstants_eq fun _ member => expression.constant_mem_tokens member
  have applied := expression.runs mode [] [] (fun _ => true) Level.fitsOn_nil fun _ _ _ => rfl
  rw [evaluateTokens_eq expression.tokens_ne_nil, after, known, ok_bind]
  change (feedAll mode ⟨[], []⟩ _ >>= fun waiting => applyWhile mode _ _ _ >>= _) = _
  rw [← bind_assoc, applied, bind_assoc]
  exact bind_pure _

end Expression

end Calculator
