import Calculator.Engine
import Calculator.Proofs.Evaluation.Stacks
import Calculator.Proofs.Result
import Mathlib.Logic.Relation

/-! # Finite values and reported errors

Not every operation checks what it puts on the values: a percent sign divides and a factorial rounds
without looking at the result. All the same only finite doubles ever wait on the stack, for tokens in
any order, and then every failure is one that the user is told about. The formatter, which runs after
evaluation has succeeded, receives a finite double and so cannot fail either.
-/

namespace Calculator

/-- A finite double. -/
def FiniteValue (x : Float) : Prop := x.isFinite = true

/-- A stack of finite doubles. -/
def FiniteValues (values : List Float) : Prop := ∀ x ∈ values, FiniteValue x

theorem FiniteValues.cons {x : Float} {values : List Float} (finite : FiniteValue x)
    (rest : FiniteValues values) : FiniteValues (x :: values) :=
  List.forall_mem_cons.mpr ⟨finite, rest⟩

namespace Arithmetic

/-- A checked result is finite, or an error is reported. -/
theorem checked_reports (result : Float) (symbol : String) :
    Reports FiniteValue (checked result symbol) := by
  unfold checked
  split_ifs with undefined unbounded
  · exact ⟨_, rfl⟩
  · exact ⟨_, rfl⟩
  · exact Binary64.isFinite_of_not_nan_inf (by simpa using undefined) (by simpa using unbounded)

theorem binary_reports (operator : BinaryOperator) (a b : Float) :
    Reports FiniteValue (binary operator a b) := by
  unfold binary
  split_ifs
  · exact ⟨_, rfl⟩
  · exact checked_reports ..

theorem call_reports (mode : AngleMode) (f : Function) (x : Float) :
    Reports FiniteValue (call mode f x) := by
  unfold call
  split_ifs
  · exact ⟨_, rfl⟩
  · exact ⟨_, rfl⟩
  · exact checked_reports ..

/-- The factorial reads its argument as an integer, which only a finite double allows. -/
theorem factorial_reports {x : Float} (finite : FiniteValue x) :
    Reports FiniteValue (factorial x) := by
  obtain ⟨value, stands, -⟩ := Binary64.meaning_of_isFinite finite
  simp only [factorial, stands]
  split_ifs with argument large
  · exact ⟨_, rfl⟩
  · exact ⟨_, rfl⟩
  · exact Binary64.isFinite_factorialNat (Nat.not_lt.mp large)

end Arithmetic

/-- Whether an action puts a finite result in the place of finite operands. -/
def Action.Sound : Action → Prop
  | refuse _ => True
  | unary _ compute => ∀ x, FiniteValue x → Reports FiniteValue (compute x)
  | binary _ compute => ∀ a b, Reports FiniteValue (compute a b)

theorem Action.ofSymbol_sound (symbol : String) : (ofSymbol symbol).Sound := by
  unfold ofSymbol
  split_ifs
  · exact fun x finite => Arithmetic.factorial_reports finite
  · cases BinaryOperator.ofSymbol? symbol with
    | none => trivial
    | some operator => exact Arithmetic.binary_reports operator

/-- What a token does to finite values gives finite values or reports an error. -/
theorem Token.action_sound (mode : AngleMode) (token : Token) : (token.action mode).Sound := by
  cases token with
  | number value percent => trivial
  | openParen symbol => trivial
  | operator symbol | closeParen symbol | constant symbol => exact Action.ofSymbol_sound symbol
  | function name =>
    intro x _
    unfold callByName
    cases Function.ofName? name with
    | none => exact ⟨_, rfl⟩
    | some f => exact Arithmetic.call_reports mode f x

namespace Stacks

variable {mode : AngleMode} {waiting : Stacks} {values : List Float} {operators : List Token}

/-- What every state of an evaluation satisfies. -/
def Finite (waiting : Stacks) : Prop := FiniteValues waiting.values

theorem popValue_reports (symbol : String) (finite : FiniteValues values) :
    Reports (fun popped => FiniteValue popped.1 ∧ FiniteValues popped.2)
      (popValue symbol values) := by
  cases values with
  | nil => exact ⟨_, rfl⟩
  | cons x rest => exact List.forall_mem_cons.mp finite

/-- One operator keeps the values finite. -/
theorem applyToken_reports (token : Token) (finite : FiniteValues values) :
    Reports FiniteValues (applyToken mode token values) := by
  have sound := token.action_sound mode
  rw [applyToken_eq]
  cases action : token.action mode with
  | refuse error => exact ⟨error, rfl⟩
  | unary symbol compute =>
    rw [action] at sound
    refine (popValue_reports symbol finite).bind fun (x, rest) ⟨operand, others⟩ => ?_
    exact (sound x operand).bind fun result finite => others.cons finite
  | binary symbol compute =>
    rw [action] at sound
    refine (popValue_reports symbol finite).bind fun (b, rest) ⟨_, others⟩ => ?_
    refine (popValue_reports symbol others).bind fun (a, rest) ⟨_, others⟩ => ?_
    exact (sound a b).bind fun result finite => others.cons finite

theorem applyWhile_reports (condition : Token → Bool) (finite : FiniteValues values) :
    Reports Finite (applyWhile mode condition values operators) := by
  induction operators generalizing values with
  | nil => exact finite
  | cons token rest ih =>
    rw [applyWhile]
    split_ifs
    · exact (applyToken_reports token finite).bind fun next finite => ih finite
    · exact finite

/-- Closing a group looks for a function before it applies it, so it never meets an empty stack. -/
theorem closeGroup_reports (finite : waiting.Finite) : Reports Finite (waiting.closeGroup mode) := by
  rw [closeGroup_eq]
  refine (applyWhile_reports _ finite).bind fun inner finite => ?_
  match operators : inner.operators with
  | [] => exact ⟨_, rfl⟩
  | _ :: [] => exact finite
  | _ :: top :: rest =>
    by_cases called : top.isFunction = true
    · simp only [List.head?_cons, Option.any_some, called, if_true]
      exact (applyToken_reports top finite).bind fun next finite => finite
    · simp only [List.head?_cons, Option.any_some, called]
      exact finite

theorem pushOperator_reports (token : Token) (finite : waiting.Finite) :
    Reports Finite (waiting.pushOperator mode token) :=
  (applyWhile_reports _ finite).bind fun _ finite => finite

theorem applyPercent_reports (finite : waiting.Finite) : Reports Finite waiting.applyPercent :=
  (popValue_reports "%" finite).bind fun (_, _) ⟨operand, others⟩ =>
    others.cons (Binary64.isFinite_hundredth operand)

theorem pushNumber_reports (token : Token) (finite : waiting.Finite) :
    Reports Finite (waiting.pushNumber token) := by
  unfold pushNumber
  split_ifs with operand percentage
  · exact finite.cons (Binary64.isFinite_hundredth operand)
  · exact finite.cons operand
  · exact ⟨_, rfl⟩

/-- The step of the invariant: one token, whatever it is. -/
theorem feed_reports (token : Token) (finite : waiting.Finite) :
    Reports Finite (feed mode waiting token) := by
  cases token with
  | number value percent => exact pushNumber_reports _ finite
  | function name => exact finite
  | openParen symbol => exact finite
  | closeParen symbol => exact closeGroup_reports finite
  | operator symbol | constant symbol =>
    unfold feed
    split_ifs
    · exact applyPercent_reports finite
    · exact pushOperator_reports _ finite

/-- The run of the invariant: any tokens in any order. -/
theorem feedAll_reports (tokens : List Token) (finite : waiting.Finite) :
    Reports Finite (feedAll mode waiting tokens) := by
  induction tokens generalizing waiting with
  | nil => exact finite
  | cons token tokens ih =>
    rw [feedAll_cons]
    exact (feed_reports token finite).bind fun next finite => ih finite

theorem empty_finite : Stacks.empty.Finite := fun _ member => absurd member List.not_mem_nil

/-- The value that is left is finite, or it is reported that there is no such value. -/
theorem soleValue_reports (finite : FiniteValues values) :
    Reports FiniteValue (soleValue values) := by
  match values with
  | [] => exact ⟨_, rfl⟩
  | [x] => exact finite x (List.mem_singleton_self x)
  | _ :: _ :: _ => exact ⟨_, rfl⟩

end Stacks

theorem substituteConstants_reports (tokens : List Token) :
    Reports (fun _ => True) (substituteConstants tokens) := by
  induction tokens with
  | nil => trivial
  | cons token tokens ih =>
    rw [substituteConstants, List.mapM_cons]
    have first : Reports (fun _ => True) (substituteConstant token) := by
      unfold substituteConstant
      split
      · cases Arithmetic.constant? _ with
        | none => exact ⟨_, rfl⟩
        | some value => trivial
      · trivial
    exact first.bind fun _ _ => ih.bind fun _ _ => trivial

/-- Evaluation gives a finite value or reports an error, for every sequence of tokens. -/
theorem evaluateTokens_reports (mode : AngleMode) (tokens : List Token) :
    Reports FiniteValue (evaluateTokens mode tokens) := by
  by_cases nonempty : tokens = []
  · subst nonempty
    exact ⟨_, rfl⟩
  · rw [evaluateTokens_eq nonempty]
    have fed : Reports Stacks.Finite (Stacks.after mode tokens) :=
      (substituteConstants_reports tokens).bind fun plain _ =>
        Stacks.feedAll_reports plain Stacks.empty_finite
    refine fed.bind fun waiting finite => ?_
    refine (Stacks.applyWhile_reports _ finite).bind fun remaining finite => ?_
    exact Stacks.soleValue_reports finite

/-- The values of calculations can be shown. -/
theorem Settings.exists_resultText (settings : Settings) {x : Float} (finite : x.isFinite = true) :
    ∃ shown, settings.resultText x = .ok shown :=
  Result.text_of_isFinite finite settings.precision_mem settings.tolerance

/-- What can be evaluated can be calculated. -/
theorem Settings.exists_calculate {settings : Settings} {expression : Text} {x : Float}
    (evaluated : evaluate settings.mode expression = .ok x) :
    ∃ shown, settings.calculate expression = .ok ⟨expression, x, shown⟩ := by
  have finite : x.isFinite = true := (evaluateTokens_reports settings.mode _).ok_of_eq evaluated
  obtain ⟨shown, formatted⟩ := settings.exists_resultText finite
  refine ⟨shown, ?_⟩
  rw [calculate, evaluated, ok_bind, formatted]
  rfl

/-- A calculation fails only with reported errors, and what it succeeds with belongs together. -/
theorem Settings.calculate_reports (settings : Settings) (expression : Text) :
    Reports (fun calculation => calculation.expression = expression ∧
      calculation.value.isFinite = true ∧
        settings.resultText calculation.value = .ok calculation.text)
      (settings.calculate expression) := by
  refine (evaluateTokens_reports settings.mode _).bind fun x finite => ?_
  obtain ⟨shown, formatted⟩ := settings.exists_resultText finite
  rw [formatted]
  exact ⟨rfl, finite, formatted⟩

/-- Applying waiting operators one by one, as every loop of evaluation does. -/
theorem Stacks.Finite.pops {mode : AngleMode} {waiting later : Stacks} (finite : waiting.Finite)
    (pops :
      Relation.ReflTransGen (fun before after => before.applyTop mode = .ok after) waiting later) :
    later.Finite := by
  induction pops with
  | refl => exact finite
  | @tail before after _ pop ih =>
    rcases before with ⟨values, operators⟩
    cases operators with
    | nil => contradiction
    | cons token rest =>
      have applied : Reports Finite (applyTop mode ⟨values, token :: rest⟩) :=
        (applyToken_reports token ih).bind fun _ finite => finite
      exact applied.ok_of_eq pop

/-- A calculation ends with a reported error or with a finite value and the text of that value, and
no finite value is lost on the way: at every moment of every evaluation, after any tokens and any
number of operators applied, the values that wait are finite. -/
theorem calculate_reports_or_finite :
    (∀ (mode : AngleMode) (tokens : List Token) (waiting later : Stacks),
      Stacks.feedAll mode .empty tokens = .ok waiting →
      Relation.ReflTransGen (fun before after => before.applyTop mode = .ok after) waiting later →
        ∀ x ∈ later.values, x.isFinite = true) ∧
    (∀ (mode : AngleMode) (tokens : List Token),
      (∃ error, evaluateTokens mode tokens = .error (.reported error)) ∨
        ∃ x, evaluateTokens mode tokens = .ok x ∧ x.isFinite = true) ∧
    ∀ (settings : Settings) (expression : Text),
      (∃ error, settings.calculate expression = .error (.reported error)) ∨
        ∃ calculation, settings.calculate expression = .ok calculation ∧
          calculation.value.isFinite = true ∧
          settings.resultText calculation.value = .ok calculation.text := by
  refine ⟨?_, ?_, ?_⟩
  · intro mode tokens waiting later fed pops
    have finite := (Stacks.feedAll_reports tokens Stacks.empty_finite).ok_of_eq fed
    exact finite.pops pops
  · intro mode tokens
    exact (evaluateTokens_reports mode tokens).cases_on
  · intro settings expression
    rcases (evaluateTokens_reports settings.mode _).cases_on with
      ⟨error, failed⟩ | ⟨x, value, finite⟩
    · refine .inl ⟨error, ?_⟩
      rw [Settings.calculate, evaluate, failed]
      rfl
    · obtain ⟨shown, formatted⟩ := Result.text_of_isFinite finite settings.precision_mem
        settings.tolerance
      refine .inr ⟨⟨expression, x, shown⟩, ?_, finite, formatted⟩
      rw [Settings.calculate, evaluate, value]
      change (settings.resultText x >>= _) = _
      rw [Settings.resultText, formatted]
      rfl

/-- The values that wait after `5!`, before and after the factorial is applied. -/
theorem finite_after_factorial :
    Stacks.feedAll .radians .empty [.number 5 false, .factorialSign] =
        .ok ⟨[5], [.factorialSign]⟩ ∧
      Stacks.applyTop .radians ⟨[5], [.factorialSign]⟩ = .ok ⟨[120], []⟩ ∧
      ∀ x ∈ [(120 : Float)], x.isFinite = true := by
  have fed : Stacks.feedAll .radians .empty [.number 5 false, .factorialSign] =
      .ok ⟨[5], [.factorialSign]⟩ := by decide +kernel
  have applied : Stacks.applyTop .radians ⟨[5], [.factorialSign]⟩ = .ok ⟨[120], []⟩ := by
    decide +kernel
  exact ⟨fed, applied, calculate_reports_or_finite.1 _ _ _ _ fed (.single applied)⟩

end Calculator
