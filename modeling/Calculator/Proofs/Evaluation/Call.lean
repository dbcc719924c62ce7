import Calculator.Proofs.Evaluation.Group
import Mathlib.Data.List.Chain

/-! # Where functions wait

A closing parenthesis calls the function that waits under its opening one. When every function is
followed by a parenthesis or by a product, no other function is ever in that place: a product applies
a function before it waits itself. A number in parentheses is then taken as it is without them, unless
a function stands directly in front.
-/

namespace Calculator

/-- Behind a function comes its parenthesis, or a product that applies the function at once. -/
def CallsAtOnce (token next : Token) : Prop :=
  token.isFunction = true →
    next.isOpenParen = true ∨ next = .times ∧ Stacks.bindsFirst next token = true

@[simp] theorem Token.isFunction_plain (token : Token) : token.plain.isFunction = token.isFunction := by
  cases token <;> rfl

/-- Substituting constants leaves functions and what they call for. -/
theorem CallsAtOnce.plain {token next : Token} (calls : CallsAtOnce token next) :
    CallsAtOnce token.plain next.plain := by
  intro function
  rw [Token.isFunction_plain] at function
  obtain ⟨name, rfl⟩ := token.isFunction_iff.mp function
  rcases calls function with opens | ⟨rfl, first⟩
  · obtain ⟨symbol, rfl⟩ := next.isOpenParen_iff.mp opens
    exact .inl rfl
  · exact .inr ⟨rfl, first⟩

namespace Stacks

variable {mode : AngleMode} {waiting later : Stacks} {last : Option Token} {token : Token}
  {operators plain tokens : List Token}

/-- Functions wait only under opening parentheses, apart from the token that was taken last. -/
structure CallsWait (last : Option Token) (operators : List Token) : Prop where
  covered : operators.IsChain fun upper lower => lower.isFunction = true → upper.isOpenParen = true
  top : ∀ token ∈ operators.head?, token.isFunction = true → last = some token

theorem CallsWait.uncalled (wait : CallsWait last operators)
    (ends : last.any Token.isFunction = false) :
    operators.head?.any Token.isFunction = false := by
  refine (Option.any_eq_false _ _).mpr fun top head => Bool.eq_false_iff.mpr fun function => ?_
  rw [wait.top top head function] at ends
  exact Bool.false_ne_true (ends.symm.trans function)

section Step

variable (wait : CallsWait last operators) (follows : ∀ previous ∈ last, CallsAtOnce previous token)
include wait follows

private theorem CallsWait.calls {top : Token} (head : top ∈ operators.head?)
    (function : top.isFunction = true) :
    token.isOpenParen = true ∨ token = .times ∧ bindsFirst token top = true :=
  follows top (wait.top top head function) function

private theorem CallsWait.keep (noParen : token.isOpenParen = false) (noProduct : token ≠ .times) :
    CallsWait (some token) operators := by
  refine ⟨wait.covered, fun top head function => ?_⟩
  rcases wait.calls follows head function with opens | ⟨product, -⟩
  · exact absurd (noParen.symm.trans opens) Bool.false_ne_true
  · exact absurd product noProduct

end Step

private theorem uncalled_of_stops {applied rest : List Token} {symbol : String}
    (wait : CallsWait last (applied ++ rest))
    (follows : ∀ previous ∈ last, CallsAtOnce previous (.operator symbol))
    (first : ∀ top ∈ applied, bindsFirst (.operator symbol) top = true)
    (stops : ∀ top ∈ rest.head?, bindsFirst (.operator symbol) top = false) {top : Token}
    (head : top ∈ rest.head?) : top.isFunction = false := by
  -- A function would have been applied, or a parenthesis would cover it.
  refine Bool.eq_false_iff.mpr fun function => ?_
  rcases List.eq_nil_or_concat applied with rfl | ⟨init, upper, rfl⟩
  · rcases wait.calls follows head function with opens | ⟨-, applies⟩
    · cases opens
    · exact Bool.false_ne_true ((stops top head).symm.trans applies)
  · have opens : upper.isOpenParen = true :=
      (List.isChain_append.mp wait.covered).2.2 upper (by simp) top head function
    have applies := first upper (by simp)
    simp [bindsFirst, opens] at applies

/-- A step lets functions wait only where a parenthesis will call them. -/
theorem Takes.callsWait (takes : Takes mode waiting token later)
    (wait : CallsWait last waiting.operators)
    (follows : ∀ previous ∈ last, CallsAtOnce previous token) :
    CallsWait (some token) later.operators := by
  cases takes with
  | number finite => exact wait.keep follows rfl nofun
  | percent => exact wait.keep follows rfl (by decide)
  | wait waits =>
    refine ⟨wait.covered.cons fun top head function => ?_, fun top head _ => head⟩
    rcases wait.calls follows head function with opens | ⟨rfl, -⟩
    · exact opens
    · rcases waits with waits | waits <;> cases waits
  | @operator values next applied rest symbol other ran first stops =>
    refine ⟨wait.covered.right_of_append.cons fun top head function => ?_, fun top head _ => head⟩
    have uncalled := uncalled_of_stops wait follows first stops head
    exact absurd (uncalled.symm.trans function) Bool.false_ne_true
  | @close values next applied rest opened closed ran inside uncalled =>
    refine ⟨wait.covered.right_of_append.tail, fun top head function => ?_⟩
    have noFunction := (Option.any_eq_false _ _).mp uncalled top head
    exact absurd (noFunction.symm.trans function) Bool.false_ne_true
  | @call values next last applied rest opened closed name ran inside called =>
    have covered := wait.covered.right_of_append.tail
    refine ⟨covered.tail, fun top head function => ?_⟩
    exact absurd (covered.rel_head? head function) Bool.false_ne_true

/-- A run lets functions wait only where a parenthesis will call them. -/
theorem feedAll_callsWait (noConstant : ∀ token ∈ plain, token.isConstant = false)
    (wait : CallsWait last waiting.operators) (calls : (last.toList ++ plain).IsChain CallsAtOnce)
    (success : feedAll mode waiting plain = .ok later) :
    CallsWait (last.toList ++ plain).getLast? later.operators := by
  induction plain generalizing waiting last with
  | nil =>
    cases success
    cases last <;> simpa using wait
  | cons token plain ih =>
    obtain ⟨first, rest⟩ := List.forall_mem_cons.mp noConstant
    rw [feedAll_cons] at success
    obtain ⟨middle, taken, success⟩ := bind_eq_ok_iff.mp success
    obtain ⟨-, behind, follows⟩ := List.isChain_append.mp calls
    have step := (takes_of_feed first taken).callsWait wait fun previous member =>
      follows previous (by cases member; rfl) token rfl
    have run := ih rest step behind success
    cases last with
    | none => exact run
    | some previous =>
      rw [Option.toList_some, List.singleton_append, List.getLast?_cons_cons]
      exact run

/-- Behind a sequence that does not end with a function no function waits for a parenthesis. -/
theorem uncalled_after (calls : tokens.IsChain CallsAtOnce)
    (ends : tokens.getLast?.any Token.isFunction = false) (success : after mode tokens = .ok waiting) :
    waiting.operators.head?.any Token.isFunction = false := by
  obtain ⟨plain, substituted, success⟩ := bind_eq_ok_iff.mp success
  obtain ⟨-, rfl⟩ := substituteConstants_eq_ok_iff.mp substituted
  have plainCalls : (tokens.map Token.plain).IsChain CallsAtOnce :=
    (List.isChain_map _).mpr (calls.imp fun _ _ calls => calls.plain)
  have nothing : CallsWait none Stacks.empty.operators := ⟨.nil, by simp [empty]⟩
  have wait := feedAll_callsWait (Token.forall_isConstant_plain tokens) nothing plainCalls success
  refine wait.uncalled ?_
  rw [Option.toList_none, List.nil_append, List.getLast?_map, Option.any_map]
  simpa only [Token.isFunction_plain] using ends

/-- A number in parentheses is taken as it is without them, where no function waits for it. -/
theorem feedAll_grouped_number (x : Float) (marked : Bool)
    (uncalled : waiting.operators.head?.any Token.isFunction = false) :
    feedAll mode waiting (Token.grouped [.number x marked]) =
      feed mode waiting (.number x marked) := by
  have opened : feed mode waiting .opening = .ok (waiting.pushWaiting .opening) := rfl
  rw [Token.grouped, feedAll_cons, opened, ok_bind, List.singleton_append, feedAll_cons]
  by_cases finite : x.isFinite = true
  · have number (waiting : Stacks) : feed mode waiting (.number x marked) =
        .ok ⟨(if marked then Arithmetic.hundredth x else x) :: waiting.values, waiting.operators⟩ :=
      (Takes.number finite).feed_eq
    rw [number (waiting.pushWaiting .opening), number waiting, ok_bind, feedAll_singleton,
      feed_closing, closeGroup_eq,
      applyWhile_stop (by simp [pushWaiting, Token.opening, Token.isOpenParen]), ok_bind]
    simp only [pushWaiting, uncalled]
    rfl
  · have refused (waiting : Stacks) :
        feed mode waiting (.number x marked) = .error (.reported .numberTooLarge) := by
      rw [feed, pushNumber, Token.value, if_neg finite]
      rfl
    rw [refused, refused]
    rfl

end Stacks

open Stacks in
/-- Parentheses around a number that is no argument of a function can be left out. -/
theorem evaluateTokens_append_grouped_number {mode : AngleMode} {front behind plain : List Token}
    (calls : front.IsChain CallsAtOnce) (ends : front.getLast?.any Token.isFunction = false)
    (known : substituteConstants behind = .ok plain) (x : Float) (marked : Bool) :
    evaluateTokens mode (front ++ (Token.grouped [.number x marked] ++ behind)) =
      evaluateTokens mode (front ++ .number x marked :: behind) := by
  have grouped : substituteConstants (Token.grouped [.number x marked] ++ behind) =
      .ok (Token.grouped [.number x marked] ++ plain) := by
    rw [substituteConstants_append, known]
    rfl
  have single : substituteConstants ([.number x marked] ++ behind) =
      .ok ([.number x marked] ++ plain) := by
    rw [substituteConstants_append, known]
    rfl
  have same : after mode (front ++ (Token.grouped [.number x marked] ++ behind)) =
      after mode (front ++ ([.number x marked] ++ behind)) := by
    rw [after_append_of_substitute grouped, after_append_of_substitute single]
    cases success : after mode front with
    | error failure => rfl
    | ok waiting =>
      rw [ok_bind, ok_bind, feedAll_append, feedAll_append,
        feedAll_grouped_number x marked (uncalled_after calls ends success), feedAll_singleton]
  rw [evaluateTokens_eq (by simp [Token.grouped]), evaluateTokens_eq (by simp), same,
    List.singleton_append]

end Calculator
