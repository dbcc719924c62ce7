import Calculator.Proofs.Evaluation.Accounting

/-! # Which errors a step can end with

Arithmetic reports errors of its own two kinds only, and a missing operand has a kind to itself. Every other
kind is reported in few places, and for a reason that can be seen in the sequence: parentheses where a
closing one finds none open or an opening one is applied, a number where it is put on the values, a symbol
where it is applied or substituted. A sequence that gives no reason for errors of a kind never fails with
one.
-/

namespace Calculator

namespace ErrorKind

/-- Whether errors of a kind come from arithmetic. -/
def IsArithmetic (kind : ErrorKind) : Prop := kind = .domainError ∨ kind = .divisionByZero

/-- Whether the reason for errors of a kind can be seen in a sequence of tokens: they are neither about the
result of a computation nor about an operand that is not there. -/
structure IsVisible (kind : ErrorKind) : Prop where
  notArithmetic : ¬ kind.IsArithmetic
  notOperand : kind ≠ .invalidExpression

/-- The sequence gives no reason for errors of a kind. -/
def Excluded (tokens : List Token) : ErrorKind → Prop
  | emptyExpression => tokens ≠ []
  | unbalancedParentheses => Token.Balanced tokens
  | invalidNumber => ∀ x marked, Token.number x marked ∈ tokens → x.isFinite = true
  | unsupportedOperator => ∀ token ∈ tokens, token.isSupported = true
  | invalidExpression | divisionByZero | domainError => False

/-- What a sequence can exclude can be seen in it. -/
theorem Excluded.isVisible {tokens : List Token} {kind : ErrorKind} (excluded : kind.Excluded tokens) :
    kind.IsVisible where
  notArithmetic := by
    rintro (rfl | rfl)
    · exact excluded
    · exact excluded
  notOperand := by
    rintro rfl
    exact excluded

end ErrorKind

namespace Arithmetic

variable {kind : ErrorKind} (other : ¬ kind.IsArithmetic)
include other

private theorem domain_ne : some ErrorKind.domainError ≠ some kind := by
  rintro ⟨⟩
  exact other (.inl rfl)

/-- A checked result can fail only with an error of arithmetic. -/
theorem checked_avoids (result : Float) (symbol : String) : Avoids kind (checked result symbol) := by
  unfold checked
  split_ifs
  · exact .error (domain_ne other)
  · exact .error (domain_ne other)
  · exact .ok _

theorem binary_avoids (operator : BinaryOperator) (a b : Float) :
    Avoids kind (binary operator a b) := by
  unfold binary
  split_ifs
  · refine .error ?_
    rintro ⟨⟩
    exact other (.inr rfl)
  · exact checked_avoids other _ _

theorem call_avoids (mode : AngleMode) (f : Function) (x : Float) : Avoids kind (call mode f x) := by
  unfold call
  split_ifs
  · exact .error (domain_ne other)
  · exact .error (domain_ne other)
  · exact checked_avoids other _ _

theorem factorial_avoids (x : Float) : Avoids kind (factorial x) := by
  unfold factorial
  split
  · exact .error nofun
  · exact .error nofun
  · exact .error (domain_ne other)
  · split_ifs
    · exact .error (domain_ne other)
    · exact .error (domain_ne other)
    · exact .ok _

end Arithmetic

/-- A token that waits and can be applied. -/
def Token.IsApplicable (token : Token) : Prop := token.canWait = true ∧ token.isSupported = true

namespace Stacks

variable {mode : AngleMode} {waiting : Stacks} {values : List Float} {token : Token}
  {operators tokens : List Token} {condition : Token → Bool}

/-- A value that is missing is reported as an invalid expression. -/
theorem popValue_avoids {kind : ErrorKind} (other : kind ≠ .invalidExpression) (symbol : String)
    (values : List Float) : Avoids kind (popValue symbol values) := by
  cases values with
  | nil =>
    refine .error ?_
    rintro ⟨⟩
    exact other rfl
  | cons x values => exact .ok _

section Visible

variable {kind : ErrorKind} (visible : kind.IsVisible)
include visible

private theorem operand_avoids (symbol : String) (values : List Float) :
    Avoids kind (popValue symbol values) := popValue_avoids visible.notOperand symbol values

private theorem invalidExpression_ne : some ErrorKind.invalidExpression ≠ some kind :=
  fun same => visible.notOperand (Option.some.inj same).symm

/-- A symbol that evaluation knows is not reported as unsupported. -/
theorem run_ofSymbol_avoids {symbol : String}
    (known : kind = .unsupportedOperator → (Token.operator symbol).IsApplicable)
    (values : List Float) : Avoids kind ((Action.ofSymbol symbol).run values) := by
  unfold Action.ofSymbol
  split_ifs with factorial
  · refine (operand_avoids visible _ values).bind fun operand _ => ?_
    obtain ⟨x, rest⟩ := operand
    exact (Arithmetic.factorial_avoids visible.notArithmetic x).bind fun _ _ => .ok _
  · cases found : BinaryOperator.ofSymbol? symbol with
    | none =>
      refine .error ?_
      rintro ⟨⟩
      obtain ⟨waits, supported⟩ := known rfl
      have notPercent : symbol ≠ "%" := by simpa [Token.canWait] using waits
      simp [Token.isSupported, notPercent, factorial, found] at supported
    | some operator =>
      refine (operand_avoids visible _ values).bind fun second _ => ?_
      obtain ⟨b, rest⟩ := second
      refine (operand_avoids visible _ rest).bind fun first _ => ?_
      obtain ⟨a, rest⟩ := first
      exact (Arithmetic.binary_avoids visible.notArithmetic operator a b).bind fun _ _ => .ok _

/-- Applying a token reports parentheses only if the token is an opening one, and a symbol only if it is
unknown or not one that waits. -/
theorem applyToken_avoids (closed : kind = .unbalancedParentheses → token.isOpenParen = false)
    (known : kind = .unsupportedOperator → token.IsApplicable) (values : List Float) :
    Avoids kind (applyToken mode token values) := by
  rw [applyToken_eq]
  cases token with
  | number =>
    refine .error ?_
    rintro ⟨⟩
    cases (known rfl).1
  | openParen =>
    refine .error ?_
    rintro ⟨⟩
    cases closed rfl
  | operator symbol => exact run_ofSymbol_avoids visible known values
  | closeParen symbol | constant symbol =>
    refine run_ofSymbol_avoids visible (fun same => ?_) values
    cases (known same).1
  | function name =>
    refine (operand_avoids visible _ values).bind fun operand _ => ?_
    obtain ⟨x, rest⟩ := operand
    have called : Avoids kind (callByName mode name x) := by
      unfold callByName
      cases found : Function.ofName? name with
      | none =>
        refine .error ?_
        rintro ⟨⟩
        have supported := (known rfl).2
        rw [Token.isSupported, found] at supported
        cases supported
      | some f => exact Arithmetic.call_avoids visible.notArithmetic mode f x
    exact called.bind fun _ _ => .ok _

/-- Operators that can be applied meet a parenthesis only where the condition lets them. -/
theorem applyWhile_avoids
    (closed : kind = .unbalancedParentheses →
      ∀ top ∈ operators, condition top = true → top.isOpenParen = false)
    (known : kind = .unsupportedOperator → ∀ top ∈ operators, top.IsApplicable)
    (values : List Float) : Avoids kind (applyWhile mode condition values operators) := by
  induction operators generalizing values with
  | nil => exact .ok _
  | cons top operators ih =>
    by_cases holds : condition top = true
    · rw [applyWhile_cons holds]
      have first : Avoids kind (applyToken mode top values) :=
        applyToken_avoids visible (fun same => closed same top (List.mem_cons_self ..) holds)
          (fun same => known same top (List.mem_cons_self ..)) values
      refine first.bind fun next _ => ih ?_ ?_ next
      · exact fun same top member => closed same top (List.mem_cons_of_mem _ member)
      · exact fun same top member => known same top (List.mem_cons_of_mem _ member)
    · rw [applyWhile_stop (by simpa using holds)]
      exact .ok _

/-- A closing parenthesis that finds an opening one is not reported. -/
theorem closeGroup_avoids
    (opened : kind = .unbalancedParentheses → 0 < waiting.operators.countP Token.isOpenParen)
    (known : kind = .unsupportedOperator → ∀ top ∈ waiting.operators, top.IsApplicable) :
    Avoids kind (waiting.closeGroup mode) := by
  rw [closeGroup_eq]
  refine (applyWhile_avoids visible (by simp) known waiting.values).bind fun inner success => ?_
  obtain ⟨applied, split, -, inside, -⟩ := exists_applied success
  have none : applied.countP Token.isOpenParen = 0 :=
    countP_isOpenParen_eq_zero (by simpa using inside)
  rcases inner with ⟨values, remaining⟩
  cases remaining with
  | nil =>
    refine .error ?_
    rintro ⟨⟩
    have opened := opened rfl
    rw [split, List.countP_append, none] at opened
    simp at opened
  | cons top rest =>
    change Avoids _ (if rest.head?.any Token.isFunction then applyTop mode ⟨values, rest⟩
      else .ok ⟨values, rest⟩)
    split_ifs with called
    · cases rest with
      | nil => cases called
      | cons next rest =>
        obtain ⟨name, rfl⟩ := next.isFunction_iff.mp called
        have applicable : kind = .unsupportedOperator → (Token.function name).IsApplicable :=
          fun same => known same _ (by simp [split])
        exact (applyToken_avoids visible (fun _ => rfl) applicable values).bind fun _ _ => .ok _
    · exact .ok _

/-- Apart from operands and arithmetic, a step is refused for a parenthesis that is not open, an unknown
operator, or a number that is not finite. -/
theorem feed_avoids
    (opened : kind = .unbalancedParentheses → token.isCloseParen = true →
      0 < waiting.operators.countP Token.isOpenParen)
    (known : kind = .unsupportedOperator → ∀ top ∈ waiting.operators, top.IsApplicable)
    (finite : kind = .invalidNumber → ∀ x marked, token = .number x marked → x.isFinite = true) :
    Avoids kind (feed mode waiting token) := by
  have pushed (token : Token) : Avoids kind (waiting.pushOperator mode token) := by
    rw [pushOperator_eq]
    refine (applyWhile_avoids visible (fun _ top _ first => ?_) known waiting.values).bind
      fun _ _ => .ok _
    simp only [bindsFirst, Bool.and_eq_true, Bool.not_eq_true'] at first
    exact first.1
  cases token with
  | number x marked =>
    rw [feed, pushNumber]
    split_ifs with fits percentage
    · exact .ok _
    · exact .ok _
    · refine .error ?_
      rintro ⟨⟩
      exact fits (finite rfl x marked rfl)
  | function name => exact .ok _
  | openParen symbol => exact .ok _
  | closeParen symbol => exact closeGroup_avoids visible (fun same => opened same rfl) known
  | operator symbol | constant symbol =>
    unfold feed
    split_ifs
    · exact (operand_avoids visible _ _).bind fun _ _ => .ok _
    · exact pushed _

/-- A run reports parentheses only if a prefix closes more than is open, a symbol only if it is unknown, and
a number only if it is not finite. -/
theorem feedAll_avoids (noConstant : ∀ token ∈ tokens, token.isConstant = false)
    (covered : kind = .unbalancedParentheses → ∀ front, front <+: tokens →
      front.countP Token.isCloseParen ≤
        waiting.operators.countP Token.isOpenParen + front.countP Token.isOpenParen)
    (known : kind = .unsupportedOperator →
      (∀ top ∈ waiting.operators, top.IsApplicable) ∧ ∀ token ∈ tokens, token.isSupported = true)
    (finite : kind = .invalidNumber → ∀ x marked, .number x marked ∈ tokens → x.isFinite = true) :
    Avoids kind (feedAll mode waiting tokens) := by
  induction tokens generalizing waiting with
  | nil => exact .ok _
  | cons token tokens ih =>
    obtain ⟨first, rest⟩ := List.forall_mem_cons.mp noConstant
    have opened (same : kind = .unbalancedParentheses) (closes : token.isCloseParen = true) :
        0 < waiting.operators.countP Token.isOpenParen := by
      have now := covered same [token] (by simp)
      have noOpening : token.isOpenParen = false := by
        cases token <;> first | rfl | cases closes
      have counts : [token].countP Token.isCloseParen = 1 ∧ [token].countP Token.isOpenParen = 0 := by
        simp [closes, noOpening]
      omega
    have step : Avoids kind (feed mode waiting token) :=
      feed_avoids visible opened (fun same => (known same).1) fun same x marked number =>
        finite same x marked (number ▸ List.mem_cons_self ..)
    rw [feedAll_cons]
    refine step.bind fun middle taken => ih rest ?_ ?_ ?_
    · intro same front inside
      have account := (takes_of_feed first taken).parentheses
      have whole := covered same (token :: front) (List.cons_prefix_cons.mpr ⟨rfl, inside⟩)
      rw [← List.singleton_append, List.countP_append, List.countP_append] at whole
      omega
    · intro same
      obtain ⟨applicable, supported⟩ := known same
      refine ⟨fun top member => ?_, fun other inside => supported other (.tail _ inside)⟩
      rcases (takes_of_feed first taken).mem_operators member with waited | ⟨rfl, waits⟩
      · exact applicable top waited
      · exact ⟨waits, supported top (List.mem_cons_self ..)⟩
    · exact fun same x marked inside => finite same x marked (.tail _ inside)

end Visible

end Stacks

section Visible

variable {kind : ErrorKind} {tokens : List Token}

/-- Substitution fails at a constant that is unknown. -/
theorem substituteConstants_avoids
    (known : kind = .unsupportedOperator → ∀ token ∈ tokens, token.isSupported = true) :
    Avoids kind (substituteConstants tokens) := by
  induction tokens with
  | nil => exact .ok _
  | cons token tokens ih =>
    have first : Avoids kind (substituteConstant token) := by
      cases token with
      | constant name =>
        rw [substituteConstant, Arithmetic.constant?]
        split_ifs with isPi
        · exact .ok _
        · refine .error ?_
          rintro ⟨⟩
          exact isPi (by simpa [Token.isSupported] using known rfl _ (List.mem_cons_self ..))
      | _ => exact .ok _
    rw [substituteConstants, List.mapM_cons]
    have rest := ih fun same other member => known same other (.tail _ member)
    exact first.bind fun _ _ => rest.bind fun _ _ => .ok _

/-- A sequence that gives no reason for errors of a kind does not fail with one. -/
theorem evaluateTokens_avoids_of_excluded (excluded : kind.Excluded tokens) (mode : AngleMode) :
    Avoids kind (evaluateTokens mode tokens) := by
  have visible := excluded.isVisible
  by_cases nonempty : tokens = []
  · subst nonempty
    refine .error ?_
    rintro ⟨⟩
    exact excluded rfl
  have known : kind = .unsupportedOperator → ∀ token ∈ tokens, token.isSupported = true := by
    rintro rfl
    exact excluded
  rw [evaluateTokens_eq nonempty, Stacks.after, bind_assoc]
  refine (substituteConstants_avoids known).bind fun plain substituted => ?_
  obtain ⟨-, rfl⟩ := substituteConstants_eq_ok_iff.mp substituted
  -- Substituting constants keeps parentheses, numbers and what is supported, so a reason for an error in the
  -- run would be one in the given sequence.
  have noConstant := Token.forall_isConstant_plain tokens
  have opens := Token.countP_plain Token.isOpenParen fun _ => rfl
  have closes := Token.countP_plain Token.isCloseParen fun _ => rfl
  have balanced : kind = .unbalancedParentheses → Token.Balanced tokens := by
    rintro rfl
    exact excluded
  have covered : kind = .unbalancedParentheses → ∀ front, front <+: tokens.map Token.plain →
      front.countP Token.isCloseParen ≤
        Stacks.empty.operators.countP Token.isOpenParen + front.countP Token.isOpenParen := by
    intro same front inside
    obtain ⟨original, part, rfl⟩ := List.prefix_map_iff.mp inside
    have below := (balanced same).neverOvercloses original part
    rw [opens, closes]
    omega
  have supported : kind = .unsupportedOperator → ∀ token ∈ tokens.map Token.plain,
      token.isSupported = true := by
    intro same token member
    obtain ⟨original, inside, rfl⟩ := List.mem_map.mp member
    have known := known same original inside
    cases original with
    | constant name => rfl
    | _ => exact known
  have finite : kind = .invalidNumber → ∀ x marked, .number x marked ∈ tokens.map Token.plain →
      x.isFinite = true := by
    rintro rfl x marked member
    obtain ⟨original, inside, same⟩ := List.mem_map.mp member
    cases original with
    | number y other =>
      cases same
      exact excluded x marked inside
    | constant name =>
      cases same
      decide
    | _ => cases same
  have none : ∀ top ∈ Stacks.empty.operators, top.IsApplicable := by simp [Stacks.empty]
  refine (Stacks.feedAll_avoids visible noConstant covered (fun same => ⟨none, supported same⟩)
    finite).bind fun waiting fed => ?_
  have account := (Stacks.accounts_of_feedAll noConstant fed).1
  rw [Stacks.result]
  refine (Stacks.applyWhile_avoids visible (fun same top member _ => ?_) (fun same top member => ?_)
    _).bind fun remaining _ => ?_
  · have none : waiting.operators.countP Token.isOpenParen = 0 := by
      have closed := (balanced same).closed
      rw [opens, closes] at account
      simp only [Stacks.empty, List.countP_nil] at account
      omega
    simpa using List.countP_eq_zero.mp none top member
  · rcases Stacks.mem_operators_of_feedAll noConstant fed member with waited | ⟨taken, waits⟩
    · cases waited
    · exact ⟨waits, supported same top taken⟩
  · rcases remaining.values with _ | ⟨x, _ | ⟨y, rest⟩⟩
    · exact .error (Stacks.invalidExpression_ne visible)
    · exact .ok x
    · exact .error (Stacks.invalidExpression_ne visible)

end Visible

/-- A sequence with balanced parentheses never fails because of them. -/
theorem evaluateTokens_avoids {tokens : List Token} (balanced : Token.Balanced tokens)
    (mode : AngleMode) : Avoids .unbalancedParentheses (evaluateTokens mode tokens) := by
  have excluded : ErrorKind.unbalancedParentheses.Excluded tokens := balanced
  exact evaluateTokens_avoids_of_excluded excluded mode

/-- A sequence with a token never fails for want of one. -/
theorem evaluateTokens_avoids_empty {tokens : List Token} (someToken : tokens ≠ []) (mode : AngleMode) :
    Avoids .emptyExpression (evaluateTokens mode tokens) := by
  have excluded : ErrorKind.emptyExpression.Excluded tokens := someToken
  exact evaluateTokens_avoids_of_excluded excluded mode

end Calculator
