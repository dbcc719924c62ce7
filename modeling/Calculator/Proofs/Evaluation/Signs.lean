import Calculator.Proofs.Evaluation.Bare

/-! # Signs behind an operand

A percent sign acts at once on the value on top. A factorial waits, until the next factorial or the end
applies it. So in a chain of signs every factorial acts behind the percent signs that directly follow it,
and a percent sign at the end of a chain divides the whole operand only if no factorial is in the chain.
-/

namespace Calculator

/-- The signs that stand behind an operand. -/
inductive TrailingSign where
  | factorial
  | percent
deriving DecidableEq

namespace TrailingSign

/-- The token of a sign. -/
def token : TrailingSign → Token
  | factorial => .factorialSign
  | percent => .percentSign

/-- What a sign makes of a value. -/
def apply (x : Float) : TrailingSign → Except Failure Float
  | factorial => Arithmetic.factorial x
  | percent => .ok (Arithmetic.hundredth x)

/-- What signs make of a value, one after the other. -/
def applyAll (x : Float) (signs : List TrailingSign) : Except Failure Float := signs.foldlM apply x

/-- The signs of a chain in the order in which they act: a factorial acts behind the percent signs that
directly follow it. -/
def actingOrder : List TrailingSign → List TrailingSign
  | [] => []
  | percent :: rest => percent :: actingOrder rest
  | factorial :: rest =>
      rest.takeWhile (· = percent) ++ factorial :: actingOrder (rest.dropWhile (· = percent))
termination_by signs => signs.length
decreasing_by
  · exact Nat.lt_succ_self _
  · exact Nat.lt_succ_of_le (List.dropWhile_suffix _).length_le

section Order

variable (rest : List TrailingSign)

@[simp] theorem actingOrder_factorial : actingOrder [factorial] = [factorial] := by
  simp [actingOrder]

/-- A percent sign acts before the factorial in front of it. -/
@[simp] theorem actingOrder_factorial_percent :
    actingOrder (factorial :: percent :: rest) = percent :: actingOrder (factorial :: rest) := by
  rw [actingOrder, actingOrder]
  simp

@[simp] theorem actingOrder_factorial_factorial :
    actingOrder (factorial :: factorial :: rest) = factorial :: actingOrder (factorial :: rest) := by
  rw [actingOrder]
  simp

/-- A factorial does not act on what comes before it in another order. -/
theorem actingOrder_append_factorial : ∀ front : List TrailingSign,
    actingOrder (front ++ factorial :: rest) = actingOrder front ++ actingOrder (factorial :: rest)
  | [] => by simp [actingOrder]
  | percent :: front => by
    rw [List.cons_append, actingOrder, actingOrder, actingOrder_append_factorial front, List.cons_append]
  | [factorial] => by simp
  | factorial :: percent :: front => by
    have later := actingOrder_append_factorial (factorial :: front)
    rw [List.cons_append] at later
    simp [later]
  | factorial :: factorial :: front => by
    have later := actingOrder_append_factorial (factorial :: front)
    rw [List.cons_append] at later
    simp [later]
termination_by front => front.length

/-- Percent signs alone act in their order. -/
theorem actingOrder_eq_self {signs : List TrailingSign} (noFactorial : factorial ∉ signs) :
    actingOrder signs = signs := by
  induction signs with
  | nil => simp [actingOrder]
  | cons sign rest ih =>
    cases sign with
    | factorial => simp at noFactorial
    | percent =>
      have others : factorial ∉ rest := fun member => noFactorial (List.mem_cons_of_mem _ member)
      rw [actingOrder, ih others]

/-- A factorial acts behind all percent signs that follow it. -/
theorem actingOrder_factorial_replicate (count : Nat) :
    actingOrder (factorial :: List.replicate count percent) =
      List.replicate count percent ++ [factorial] := by
  induction count with
  | zero => simp
  | succ count ih => rw [List.replicate_succ, actingOrder_factorial_percent, ih, List.cons_append]

end Order

section Apply

variable {x : Float}

theorem applyAll_cons (sign : TrailingSign) (rest : List TrailingSign) :
    applyAll x (sign :: rest) = apply x sign >>= fun y => applyAll y rest := by
  rw [applyAll, List.foldlM_cons]
  rfl

theorem applyAll_append (first second : List TrailingSign) :
    applyAll x (first ++ second) = applyAll x first >>= fun y => applyAll y second := by
  simp only [applyAll, List.foldlM_append]

theorem applyAll_replicate_percent (count : Nat) :
    applyAll x (List.replicate count percent ++ [factorial]) =
      Arithmetic.factorial (Arithmetic.hundredth^[count] x) := by
  induction count generalizing x with
  | zero => exact bind_pure _
  | succ count ih =>
    rw [List.replicate_succ, List.cons_append, applyAll_cons, Function.iterate_succ_apply]
    exact ih

end Apply

end TrailingSign

namespace Stacks

open TrailingSign (actingOrder)

variable {mode : AngleMode} {x : Float}

private theorem result_factorial :
    result mode ⟨[x], [.factorialSign]⟩ = Arithmetic.factorial x := by
  rw [result, applyWhile_cons rfl, applyToken_factorialSign, bind_assoc, bind_assoc]
  exact bind_pure _

private theorem feed_factorial :
    feed mode ⟨[x], []⟩ .factorialSign = .ok ⟨[x], [.factorialSign]⟩ ∧
      feed mode ⟨[x], [.factorialSign]⟩ .factorialSign =
        Arithmetic.factorial x >>= fun y => .ok ⟨[y], [.factorialSign]⟩ := by
  refine ⟨rfl, ?_⟩
  rw [feed_factorialSign, pushOperator_eq, applyWhile_cons (by decide), applyToken_factorialSign,
    bind_assoc, bind_assoc]
  rfl

/-- Behind a value that is alone, and behind one that a factorial waits for, signs act in their order. -/
theorem feedAll_signs (x : Float) (signs : List TrailingSign) :
    feedAll mode ⟨[x], []⟩ (signs.map TrailingSign.token) >>= result mode =
        TrailingSign.applyAll x (actingOrder signs) ∧
    feedAll mode ⟨[x], [.factorialSign]⟩ (signs.map TrailingSign.token) >>= result mode =
        TrailingSign.applyAll x (actingOrder (.factorial :: signs)) := by
  induction signs generalizing x with
  | nil =>
    rw [TrailingSign.actingOrder_factorial]
    refine ⟨by simp [actingOrder]; rfl, ?_⟩
    exact result_factorial.trans (bind_pure _).symm
  | cons sign rest ih =>
    rw [List.map_cons, feedAll_cons, feedAll_cons]
    cases sign with
    | percent =>
      rw [TrailingSign.actingOrder_factorial_percent, actingOrder]
      exact ih (Arithmetic.hundredth x)
    | factorial =>
      obtain ⟨waits, applies⟩ := @feed_factorial mode x
      constructor
      · rw [TrailingSign.token, waits]
        exact (ih x).2
      · rw [TrailingSign.token, applies, TrailingSign.actingOrder_factorial_factorial,
          TrailingSign.applyAll_cons, bind_assoc, bind_assoc]
        congr 1
        funext y
        exact (ih y).2

end Stacks

variable {mode : AngleMode} {base operand : List Token} {signs : List TrailingSign} {a : Float}

/-- An operand consists of a bare operand and signs. -/
theorem Derives.exists_bare {phrase : Phrase} {tokens : List Token} (derives : Derives phrase tokens) :
    phrase = .operand → ∃ (base : List Token) (signs : List TrailingSign),
      Bare base ∧ tokens = base ++ signs.map TrailingSign.token := by
  induction derives with
  | number x marked => exact fun _ => ⟨_, [], .number x marked, by simp⟩
  | constant name => exact fun _ => ⟨_, [], .constant name, by simp⟩
  | group opened closed expression => exact fun _ => ⟨_, [], .group opened closed expression, by simp⟩
  | call name opened closed argument =>
    exact fun _ => ⟨_, [], .call name opened closed argument, by simp⟩
  | factorial complete ih =>
    intro same
    obtain ⟨base, signs, bare, rfl⟩ := ih same
    exact ⟨base, signs ++ [.factorial], bare, by simp [TrailingSign.token]⟩
  | percent complete ih =>
    intro same
    obtain ⟨base, signs, bare, rfl⟩ := ih same
    exact ⟨base, signs ++ [.percent], bare, by simp [TrailingSign.token]⟩
  | single | joined => exact nofun

theorem Bare.ne_nil (bare : Bare base) : base ≠ [] := by
  cases bare <;> exact List.cons_ne_nil _ _

private theorem countP_signs (signs : List TrailingSign) :
    (signs.map TrailingSign.token).countP Token.isOperand = 0 ∧
      (signs.map TrailingSign.token).countP Token.isBinary = 0 := by
  constructor <;> refine List.countP_eq_zero.mpr fun token member => ?_
  all_goals
    obtain ⟨sign, -, rfl⟩ := List.mem_map.mp member
    cases sign <;> decide

private theorem substituteConstants_signs (signs : List TrailingSign) :
    substituteConstants (signs.map TrailingSign.token) = .ok (signs.map TrailingSign.token) := by
  refine substituteConstants_eq_ok_iff.mpr ⟨fun name member => ?_, ?_⟩
  · obtain ⟨sign, -, same⟩ := List.mem_map.mp member
    cases sign <;> cases same
  · rw [List.map_map]
    exact List.map_congr_left fun sign _ => by cases sign <;> rfl

/-- If a bare operand evaluates with some signs behind it, it has a value, and any signs behind it act on
this value in their order. -/
theorem evaluateTokens_bare_append (bare : Bare base)
    (success : evaluateTokens mode (base ++ signs.map TrailingSign.token) = .ok a) :
    ∃ b, evaluateTokens mode base = .ok b ∧ ∀ chain : List TrailingSign,
      evaluateTokens mode (base ++ chain.map TrailingSign.token) =
        TrailingSign.applyAll b (TrailingSign.actingOrder chain) := by
  have single := operands_of_evaluateTokens success
  obtain ⟨noOperand, noBinary⟩ := countP_signs signs
  rw [List.countP_append, List.countP_append, noOperand, noBinary] at single
  obtain ⟨waiting, fed, -⟩ := Stacks.exists_after_of_evaluateTokens success
  rw [Stacks.after_append (substituteConstants_signs signs)] at fed
  obtain ⟨later, taken, -⟩ := bind_eq_ok_iff.mp fed
  obtain ⟨b, rfl⟩ := Stacks.after_bare bare single taken
  have chains (chain : List TrailingSign) :
      evaluateTokens mode (base ++ chain.map TrailingSign.token) =
        TrailingSign.applyAll b (TrailingSign.actingOrder chain) := by
    rw [evaluateTokens_eq (by simp [bare.ne_nil]), Stacks.after_append (substituteConstants_signs chain),
      taken, ok_bind]
    exact (Stacks.feedAll_signs b chain).1
  refine ⟨b, ?_, chains⟩
  have alone := chains []
  rw [List.map_nil, List.append_nil] at alone
  rw [alone, TrailingSign.actingOrder]
  rfl

/-- A percent sign behind an operand that evaluates divides its value by one hundred if the operand has no
factorial among the signs at its end. Otherwise it acts in front of the last factorial, and so do the percent
signs that already stand behind this factorial. In a whole chain every sign but the factorial acts where it
stands. -/
theorem evaluateTokens_append_percentSign (derives : Derives .operand operand)
    (success : evaluateTokens mode operand = .ok a) :
    ∃ (base : List Token) (signs : List TrailingSign) (b : Float),
      Bare base ∧ operand = base ++ signs.map TrailingSign.token ∧
      evaluateTokens mode base = .ok b ∧
      (.factorial ∉ signs →
        evaluateTokens mode (operand ++ [.percentSign]) = .ok (Arithmetic.hundredth a)) ∧
      (∀ front count, signs = front ++ .factorial :: List.replicate count .percent →
        ∃ x, evaluateTokens mode (base ++ front.map TrailingSign.token) = .ok x ∧
          evaluateTokens mode (operand ++ [.percentSign]) =
            Arithmetic.factorial (Arithmetic.hundredth^[count + 1] x)) ∧
      ∀ chain : List TrailingSign, evaluateTokens mode (base ++ chain.map TrailingSign.token) =
        TrailingSign.applyAll b (TrailingSign.actingOrder chain) := by
  obtain ⟨base, signs, bare, rfl⟩ := derives.exists_bare rfl
  obtain ⟨b, value, chains⟩ := evaluateTokens_bare_append bare success
  have longer : base ++ signs.map TrailingSign.token ++ [.percentSign] =
      base ++ (signs ++ [TrailingSign.percent]).map TrailingSign.token := by simp [TrailingSign.token]
  rw [chains] at success
  refine ⟨base, signs, b, bare, rfl, value, fun noFactorial => ?_, ?_, chains⟩
  · have noneYet : .factorial ∉ signs ++ [TrailingSign.percent] := by simp [noFactorial]
    rw [TrailingSign.actingOrder_eq_self noFactorial] at success
    rw [longer, chains, TrailingSign.actingOrder_eq_self noneYet, TrailingSign.applyAll_append, success]
    rfl
  · rintro front count rfl
    rw [TrailingSign.actingOrder_append_factorial, TrailingSign.applyAll_append] at success
    obtain ⟨x, before, -⟩ := bind_eq_ok_iff.mp success
    refine ⟨x, (chains front).trans before, ?_⟩
    rw [longer, chains, List.append_assoc, List.cons_append, ← List.replicate_succ',
      TrailingSign.actingOrder_append_factorial, TrailingSign.applyAll_append, before, ok_bind,
      TrailingSign.actingOrder_factorial_replicate, TrailingSign.applyAll_replicate_percent]

/-- In `3!!` two factorials act, and a percent sign that follows divides before the second one does. -/
theorem evaluateTokens_append_percentSign_twice :
    Derives .operand [.number 3 false, .factorialSign, .factorialSign] ∧
    evaluateTokens .radians [.number 3 false, .factorialSign, .factorialSign] = .ok 720 ∧
    ∃ (base : List Token) (signs : List TrailingSign) (b : Float), Bare base ∧
      [.number 3 false, .factorialSign, .factorialSign] = base ++ signs.map TrailingSign.token ∧
      evaluateTokens .radians base = .ok b ∧
      (.factorial ∉ signs →
        evaluateTokens .radians [.number 3 false, .factorialSign, .factorialSign, .percentSign] =
          .ok (Arithmetic.hundredth 720)) ∧
      (∀ front count, signs = front ++ .factorial :: List.replicate count .percent →
        ∃ x, evaluateTokens .radians (base ++ front.map TrailingSign.token) = .ok x ∧
          evaluateTokens .radians [.number 3 false, .factorialSign, .factorialSign, .percentSign] =
            Arithmetic.factorial (Arithmetic.hundredth^[count + 1] x)) ∧
      ∀ chain : List TrailingSign, evaluateTokens .radians (base ++ chain.map TrailingSign.token) =
        TrailingSign.applyAll b (TrailingSign.actingOrder chain) := by
  have derives : Derives .operand [.number 3 false, .factorialSign, .factorialSign] :=
    .factorial (.factorial (.number 3 false))
  have value : evaluateTokens .radians [.number 3 false, .factorialSign, .factorialSign] = .ok 720 := by
    decide +kernel
  exact ⟨derives, value, evaluateTokens_append_percentSign derives value⟩

/-- `5!` is 120, but `5!%` is the factorial of a fraction, an error; `0!` is 1, and so is `0!%`. -/
theorem percentSign_acts_before_factorial :
    (Derives .operand [.number 5 false, .factorialSign] ∧
      evaluateTokens .radians [.number 5 false, .factorialSign] = .ok 120 ∧
      evaluateTokens .radians [.number 5 false, .factorialSign, .percentSign] =
        .error (.reported .factorialArgument)) ∧
    (Derives .operand [.number 0 false, .factorialSign] ∧
      evaluateTokens .radians [.number 0 false, .factorialSign] = .ok 1 ∧
      evaluateTokens .radians [.number 0 false, .factorialSign, .percentSign] = .ok 1 ∧
      evaluateTokens .radians [.number 0 false, .factorialSign, .percentSign] ≠
        .ok (Arithmetic.hundredth 1)) := by
  refine ⟨⟨.factorial (.number 5 false), ?_⟩, ⟨.factorial (.number 0 false), ?_⟩⟩
  · decide +kernel
  · decide +kernel

end Calculator
