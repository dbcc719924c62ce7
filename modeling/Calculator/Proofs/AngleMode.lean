import Calculator.Proofs.Evaluation.Step
import Calculator.Proofs.Written

/-! # What depends on the unit of angles

The unit is carried through every step of an evaluation, but only the call of a function of angles looks at
it. Runs over a sequence without such functions keep the same stacks in both units, token by token, and
end with the same value or the same error, whatever else the sequence is.
-/

namespace Calculator

/-- The functions that take or give an angle. -/
def Function.trigonometric : List Function := [sin, cos, tan, asin, acos, atan]

/-- A token that is not a function of angles. -/
def Token.IgnoresMode (token : Token) : Prop :=
  ∀ f ∈ Function.trigonometric, token ≠ .function f.name

section Modes

variable {mode other : AngleMode}

/-- A function without angles gives the same in every mode. -/
theorem Arithmetic.call_congr {f : Function} (plain : f ∉ Function.trigonometric) (x : Float) :
    call mode f x = call other f x := by
  have noAngle : f.takesAngle = false ∧ f.givesAngle = false := by
    cases f <;> first | exact ⟨rfl, rfl⟩ | exact absurd (by decide) plain
  simp [call, toRadians, ofRadians, noAngle.1, noAngle.2]

/-- The mode is looked at only where a function with angles is applied. -/
theorem Token.action_congr {token : Token} (ignores : token.IgnoresMode) :
    token.action mode = token.action other := by
  cases token with
  | function name =>
    have same : callByName mode name = callByName other name := by
      funext x
      unfold callByName
      cases found : Function.ofName? name with
      | none => rfl
      | some f =>
        obtain rfl := Function.ofName?_eq_some_iff.mp found
        exact Arithmetic.call_congr (fun member => ignores f member rfl) x
    rw [action, action, same]
  | _ => rfl

namespace Stacks

variable {waiting : Stacks} {values : List Float} {operators tokens : List Token}
  {condition : Token → Bool}

theorem applyToken_congr {token : Token} (ignores : token.IgnoresMode) (values : List Float) :
    applyToken mode token values = applyToken other token values := by
  rw [applyToken_eq, applyToken_eq, token.action_congr ignores]

/-- Operators that ignore the mode are applied alike in every mode. -/
theorem applyWhile_congr (ignore : ∀ top ∈ operators, top.IgnoresMode) (values : List Float) :
    applyWhile mode condition values operators = applyWhile other condition values operators := by
  induction operators generalizing values with
  | nil => rfl
  | cons top operators ih =>
    obtain ⟨first, rest⟩ := List.forall_mem_cons.mp ignore
    by_cases holds : condition top = true
    · rw [applyWhile_cons holds, applyWhile_cons holds, applyToken_congr first]
      exact bind_congr_of_ok fun next _ => ih rest next
    · rw [applyWhile_stop (by simpa using holds), applyWhile_stop (by simpa using holds)]

/-- A group is closed alike, since the function in front of it waits as well. -/
theorem closeGroup_congr (ignore : ∀ top ∈ waiting.operators, top.IgnoresMode) :
    waiting.closeGroup mode = waiting.closeGroup other := by
  rw [closeGroup_eq, closeGroup_eq, applyWhile_congr ignore]
  refine bind_congr_of_ok fun inner ran => ?_
  obtain ⟨applied, split, -, -, -⟩ := exists_applied ran
  rcases inner with ⟨values, _ | ⟨top, _ | ⟨function, outer⟩⟩⟩
  · rfl
  · rfl
  · have member : function ∈ waiting.operators := by simp [split]
    have same : applyToken mode function values = applyToken other function values :=
      applyToken_congr (ignore function member) values
    simp only [applyTop, same]

/-- A step looks at the unit only to apply what waits. -/
theorem feed_congr (ignore : ∀ top ∈ waiting.operators, top.IgnoresMode) (token : Token) :
    feed mode waiting token = feed other waiting token := by
  cases token with
  | number | function | openParen => rfl
  | closeParen symbol => exact closeGroup_congr ignore
  | operator symbol | constant symbol =>
    unfold feed
    split_ifs
    · rfl
    · rw [pushOperator_eq, pushOperator_eq, applyWhile_congr ignore]

/-- Both runs have the same stacks after every token. -/
theorem feedAll_congr (noConstant : ∀ token ∈ tokens, token.isConstant = false)
    (ignore : ∀ token ∈ tokens, token.IgnoresMode)
    (waits : ∀ top ∈ waiting.operators, top.IgnoresMode) :
    feedAll mode waiting tokens = feedAll other waiting tokens := by
  induction tokens generalizing waiting with
  | nil => rw [feedAll_nil, feedAll_nil]
  | cons token tokens ih =>
    obtain ⟨noConstant, noConstants⟩ := List.forall_mem_cons.mp noConstant
    obtain ⟨first, rest⟩ := List.forall_mem_cons.mp ignore
    rw [feedAll_cons, feedAll_cons, feed_congr waits]
    -- What waits after the step waited before it or is the token itself, so no function of angles does.
    refine bind_congr_of_ok fun middle taken => ih noConstants rest fun top member => ?_
    rcases (takes_of_feed noConstant taken).mem_operators member with waited | ⟨rfl, -⟩
    · exact waits top waited
    · exact first

end Stacks

/-- Without functions of angles a sequence has the same value, or fails with the same error, in both
units. -/
theorem evaluateTokens_congr {tokens : List Token} (ignore : ∀ token ∈ tokens, token.IgnoresMode) :
    evaluateTokens mode tokens = evaluateTokens other tokens := by
  by_cases none : tokens = []
  · rw [none, evaluateTokens_nil, evaluateTokens_nil]
  have noConstant := Token.forall_isConstant_plain tokens
  have ignorePlain : ∀ token ∈ tokens.map Token.plain, token.IgnoresMode := by
    intro token member
    obtain ⟨original, inside, rfl⟩ := List.mem_map.mp member
    have ignores := ignore original inside
    cases original with
    | constant name => exact fun f _ => nofun
    | _ => exact ignores
  rw [evaluateTokens_eq none, evaluateTokens_eq none, Stacks.after, Stacks.after, bind_assoc, bind_assoc]
  refine bind_congr_of_ok fun plain substituted => ?_
  obtain ⟨-, rfl⟩ := substituteConstants_eq_ok_iff.mp substituted
  rw [Stacks.feedAll_congr noConstant ignorePlain (by simp [Stacks.empty])]
  refine bind_congr_of_ok fun waiting fed => ?_
  have waits : ∀ top ∈ waiting.operators, top.IgnoresMode := by
    intro top member
    rcases Stacks.mem_operators_of_feedAll noConstant fed member with waited | ⟨taken, -⟩
    · cases waited
    · exact ignorePlain top taken
  rw [Stacks.result, Stacks.result, Stacks.applyWhile_congr waits]

end Modes

namespace Settings

/-- Changes the unit of angles by each of some names in turn. -/
def setModes (names : List String) (settings : Settings) : Settings :=
  names.foldl (fun settings name => settings.setMode name) settings

/-- Mode names change nothing but the mode. -/
theorem setModes_keeps (names : List String) (settings : Settings) :
    (settings.setModes names).precision = settings.precision ∧
      (settings.setModes names).tolerance = settings.tolerance := by
  induction names generalizing settings with
  | nil => exact ⟨rfl, rfl⟩
  | cons name names ih =>
    have step : (settings.setMode name).precision = settings.precision ∧
        (settings.setMode name).tolerance = settings.tolerance := by
      unfold setMode
      cases AngleMode.ofName? name <;> exact ⟨rfl, rfl⟩
    exact ⟨(ih _).1.trans step.1, (ih _).2.trans step.2⟩

end Settings

/-- A text without functions of angles is calculated alike in whatever units two settings start with or are
changed to. -/
theorem calculate_eq_of_noTrigonometry {settings other : Settings} {text : Text}
    (plain : ∀ f ∈ Function.trigonometric, Token.function f.name ∉ (scan text).map Span.token)
    (samePrecision : settings.precision = other.precision)
    (sameTolerance : settings.tolerance = other.tolerance) (names otherNames : List String) :
    (settings.setModes names).calculate text = (other.setModes otherNames).calculate text := by
  have ignore : ∀ token ∈ writtenTokens text, token.IgnoresMode := by
    rintro token member f trigonometric rfl
    exact plain f trigonometric (written_of_mem member).mem_of_function
  obtain ⟨precision, tolerance⟩ := settings.setModes_keeps names
  obtain ⟨otherPrecision, otherTolerance⟩ := other.setModes_keeps otherNames
  simp only [Settings.calculate, evaluate_eq, Settings.resultText, precision, tolerance,
    otherPrecision, otherTolerance, samePrecision, sameTolerance]
  rw [evaluateTokens_congr ignore]

/-- The text `sqrt(16)!` has a function and is calculated alike in both units. -/
theorem calculate_eq_of_noTrigonometry_sqrt :
    (∀ f ∈ Function.trigonometric,
      Token.function f.name ∉ (scan "sqrt(16)!".toList).map Span.token) ∧
    (Settings.standard.setModes ["deg"]).calculate "sqrt(16)!".toList =
      (Settings.standard.setModes ["deg", "grad", "rad"]).calculate "sqrt(16)!".toList := by
  have plain : ∀ f ∈ Function.trigonometric,
      Token.function f.name ∉ (scan "sqrt(16)!".toList).map Span.token := by decide +kernel
  exact ⟨plain, calculate_eq_of_noTrigonometry plain rfl rfl ["deg"] ["deg", "grad", "rad"]⟩

end Calculator
