import Calculator.Proofs.Evaluation.Step

/-! # A sequence in parentheses

A sequence that evaluates on its own does the same behind an opening parenthesis, whatever waits
below: no step looks past that parenthesis. The closing parenthesis then finds the value of the
sequence, and the group as a whole behaves like a number with this value.
-/

namespace Calculator

namespace Stacks

variable {mode : AngleMode} {waiting later : Stacks} {values next : List Float} {token : Token}
  {below applied tokens plain : List Token} {a : Float}

/-- The stacks on top of others, from which an opening parenthesis separates them. -/
def above (waiting : Stacks) (values : List Float) (below : List Token) : Stacks :=
  ⟨waiting.values ++ values, waiting.operators ++ .opening :: below⟩

/-- An operator takes its values from the top and leaves those below. -/
theorem applyToken_append (success : applyToken mode token values = .ok next) (more : List Float) :
    applyToken mode token (values ++ more) = .ok (next ++ more) := by
  rw [applyToken_eq] at success ⊢
  exact Action.run_append success more

theorem applyAll_append (ran : applyAll mode values applied = .ok next) (more : List Float) :
    applyAll mode (values ++ more) applied = .ok (next ++ more) := by
  induction applied generalizing values with
  | nil =>
    cases ran
    rfl
  | cons token applied ih =>
    rw [applyAll_cons] at ran ⊢
    obtain ⟨middle, first, ran⟩ := bind_eq_ok_iff.mp ran
    rw [applyToken_append first more]
    exact ih ran

/-- The frame of a step: a token that can be taken is taken in the same way above other stacks. -/
theorem Takes.above (takes : Takes mode waiting token later) (values : List Float)
    (below : List Token) : Takes mode (waiting.above values below) token (later.above values below) := by
  cases takes with
  | number finite => exact .number finite
  | percent => exact .percent
  | wait waits => exact .wait waits
  | @operator inner next applied rest symbol other ran first stops =>
    have stopsAbove : ∀ top ∈ (rest ++ .opening :: below).head?,
        bindsFirst (.operator symbol) top = false := by
      cases rest with
      | nil => simp [bindsFirst, Token.opening, Token.isOpenParen]
      | cons top rest => simpa using stops
    simp only [Stacks.above, List.append_assoc, List.cons_append]
    exact .operator other (applyAll_append ran values) first stopsAbove
  | @close inner next applied rest opened closed ran inside uncalled =>
    have uncalledAbove : (rest ++ .opening :: below).head?.any Token.isFunction = false := by
      cases rest with
      | nil => rfl
      | cons top rest => simpa using uncalled
    simp only [Stacks.above, List.append_assoc, List.cons_append]
    exact .close (applyAll_append ran values) inside uncalledAbove
  | @call inner next last applied rest opened closed name ran inside called =>
    simp only [Stacks.above, List.append_assoc, List.cons_append]
    exact .call (applyAll_append ran values) inside (applyToken_append called values)

/-- The frame of a run: what evaluates from empty stacks never looks below its own parenthesis. -/
theorem feedAll_above (noConstant : ∀ token ∈ plain, token.isConstant = false)
    (success : feedAll mode waiting plain = .ok later) (values : List Float) (below : List Token) :
    feedAll mode (waiting.above values below) plain = .ok (later.above values below) := by
  induction plain generalizing waiting with
  | nil =>
    cases success
    rfl
  | cons token plain ih =>
    obtain ⟨first, rest⟩ := List.forall_mem_cons.mp noConstant
    rw [feedAll_cons] at success ⊢
    obtain ⟨middle, taken, success⟩ := bind_eq_ok_iff.mp success
    rw [((takes_of_feed first taken).above values below).feed_eq]
    exact ih rest success

/-- The closing parenthesis applies all that waits in a group that evaluates. -/
theorem closeGroup_above (ran : applyAll mode waiting.values waiting.operators = .ok [a])
    (values : List Float) (below : List Token) :
    (waiting.above values below).closeGroup mode =
      if below.head?.any Token.isFunction then applyTop mode ⟨a :: values, below⟩
      else .ok ⟨a :: values, below⟩ := by
  have holds : ∀ top ∈ waiting.operators, (!top.isOpenParen) = true := by
    simpa using isOpenParen_of_applyAll ran
  rw [closeGroup_eq, above, applyWhile_append (applyAll_append ran values) holds,
    applyWhile_stop (by simp [Token.opening, Token.isOpenParen]), ok_bind]
  rfl

/-- A group behind any tokens puts the value of the sequence in it on top, and calls a function that
stands directly in front of it. -/
theorem after_append_group {front : List Token} (success : evaluateTokens mode tokens = .ok a)
    (before : after mode front = .ok ⟨values, below⟩) :
    after mode (front ++ Token.grouped tokens) =
      if below.head?.any Token.isFunction then applyTop mode ⟨a :: values, below⟩
      else .ok ⟨a :: values, below⟩ := by
  obtain ⟨known, waiting, fed, ran⟩ := exists_run_of_evaluateTokens success
  have substituted : substituteConstants (Token.grouped tokens) =
      .ok (.opening :: (tokens.map Token.plain ++ [.closing])) := by
    refine substituteConstants_eq_ok_iff.mpr ⟨fun name member => known name ?_, ?_⟩
    · simpa [Token.grouped, Token.opening, Token.closing] using member
    · simp [Token.grouped, Token.opening, Token.closing, Token.plain]
  have inside := feedAll_above (Token.forall_isConstant_plain tokens) fed values below
  rw [after_append_of_substitute substituted, before, ok_bind, feedAll_cons]
  change feedAll mode (Stacks.empty.above values below) _ = _
  rw [feedAll_append, inside, ok_bind, feedAll_singleton, feed_closing]
  exact closeGroup_above ran values below

end Stacks

section Grouped

variable {mode : AngleMode} {tokens others : List Token} {a b : Float}

private theorem after_grouped (success : evaluateTokens mode tokens = .ok a) :
    Stacks.after mode (Token.grouped tokens) = .ok ⟨[a], []⟩ := by
  have front : Stacks.after mode [] = .ok ⟨[], []⟩ := rfl
  exact Stacks.after_append_group success front

/-- A group has the value of what it encloses. -/
theorem evaluateTokens_grouped (success : evaluateTokens mode tokens = .ok a) :
    evaluateTokens mode (Token.grouped tokens) = .ok a := by
  rw [evaluateTokens_eq (by simp [Token.grouped]), after_grouped success, ok_bind]
  rfl

/-- A function in front of a group is called with the value of the group. -/
theorem evaluateTokens_function_grouped (f : Function)
    (success : evaluateTokens mode tokens = .ok a) :
    evaluateTokens mode (.function f.name :: Token.grouped tokens) = Arithmetic.call mode f a := by
  have front : Stacks.after mode [.function f.name] = .ok ⟨[], [.function f.name]⟩ := rfl
  have called : Stacks.after mode (.function f.name :: Token.grouped tokens) =
      Stacks.applyTop mode ⟨[a], [.function f.name]⟩ := Stacks.after_append_group success front
  rw [evaluateTokens_eq (by simp), called]
  change ((Stacks.applyToken mode (.function f.name) [a] >>= _) >>= _) = _
  rw [Stacks.applyToken_function, bind_assoc, bind_assoc]
  exact bind_pure _

/-- A percent sign behind a group takes a hundredth of its value. -/
theorem evaluateTokens_grouped_percentSign (success : evaluateTokens mode tokens = .ok a) :
    evaluateTokens mode (Token.grouped tokens ++ [.percentSign]) =
      .ok (Arithmetic.hundredth a) := by
  rw [evaluateTokens_eq (by simp), Stacks.after_append rfl, after_grouped success]
  rfl

/-- A factorial behind a group is that of its value. -/
theorem evaluateTokens_grouped_factorialSign (success : evaluateTokens mode tokens = .ok a) :
    evaluateTokens mode (Token.grouped tokens ++ [.factorialSign]) = Arithmetic.factorial a := by
  rw [evaluateTokens_eq (by simp), Stacks.after_append rfl, after_grouped success]
  change ((Stacks.applyToken mode .factorialSign [a] >>= _) >>= _) = _
  rw [Stacks.applyToken_factorialSign, bind_assoc, bind_assoc]
  exact bind_pure _

/-- Two groups with an operator between them combine their values. -/
theorem evaluateTokens_grouped_binary (operator : BinaryOperator)
    (left : evaluateTokens mode tokens = .ok a) (right : evaluateTokens mode others = .ok b) :
    evaluateTokens mode (Token.grouped tokens ++ .binary operator :: Token.grouped others) =
      Arithmetic.binary operator a b := by
  have front : Stacks.after mode (Token.grouped tokens ++ [.binary operator]) =
      .ok ⟨[a], [.binary operator]⟩ := by
    rw [Stacks.after_append rfl, after_grouped left, ok_bind, Stacks.feedAll_singleton,
      Stacks.feed_binary]
    rfl
  have both : Stacks.after mode (Token.grouped tokens ++ .binary operator :: Token.grouped others) =
      .ok ⟨[b, a], [.binary operator]⟩ := by
    rw [List.append_cons]
    exact Stacks.after_append_group right front
  rw [evaluateTokens_eq (by simp), both, ok_bind, Stacks.result, Stacks.applyWhile_cons rfl,
    Stacks.applyToken_binary, bind_assoc, bind_assoc]
  exact bind_pure _

end Grouped

end Calculator
