import Calculator.Proofs.Evaluation.Step
import Mathlib.Data.List.Chain

/-! # The order of what waits

Before an operator waits, it applies what binds as tightly or more tightly, down to the innermost open
parenthesis. So every operator binds more tightly than the one it lies on, and it never lies on a function.
Functions and parentheses are put on anything, and what is taken off is always the top. Between two
parentheses the stack therefore holds operators that bind ever more tightly, and functions above them,
whatever was taken before.
-/

namespace Calculator

/-- Whether the token is an operator. -/
def Token.isOperator : Token → Bool
  | operator _ => true
  | _ => false

/-- What waits is an operator, a function or a parenthesis. -/
theorem Token.isOperator_of_canWait {token : Token} (waits : token.canWait = true)
    (noParen : token.isOpenParen = false) (noFunction : token.isFunction = false) :
    token.isOperator = true := by
  cases token with
  | operator symbol => rfl
  | function name => cases noFunction
  | openParen symbol => cases noParen
  | number | closeParen | constant => cases waits

/-- Operators that bind ever more tightly, and then functions: a part of the stack, from bottom to top. -/
def Ascends (segment : List Token) : Prop :=
  ∃ operators functions, segment = operators ++ functions ∧
    (∀ token ∈ operators, token.isOperator = true) ∧
      (operators.map Token.precedence).Pairwise (· < ·) ∧ ∀ token ∈ functions, token.isFunction = true

namespace Stacks

variable {mode : AngleMode} {waiting later : Stacks} {token : Token}
  {operators segment tokens : List Token}

/-- What may lie directly on what: parentheses and functions on anything, an operator only on one that binds
less tightly. -/
def MayLieOn (upper lower : Token) : Prop :=
  upper.isOpenParen = true ∨ lower.isOpenParen = true ∨ upper.isFunction = true ∨
    lower.isFunction = false ∧ lower.precedence < upper.precedence

/-- The law of the stack: what waits can wait, its functions are known, and each token may lie on the one
below it. -/
structure Ordered (operators : List Token) : Prop where
  waits : ∀ top ∈ operators, top.canWait = true
  known : KnowsFunctions operators
  layered : operators.IsChain MayLieOn

theorem ordered_nil : Ordered [] := ⟨by simp, by simp [KnowsFunctions], .nil⟩

private theorem mayLieOn_of_stops {symbol : String} {top : Token}
    (known : ∀ name, top = .function name → ∃ f : Function, name = f.name)
    (stops : bindsFirst (.operator symbol) top = false) : MayLieOn (.operator symbol) top := by
  -- A function would have been applied, as nothing binds more tightly.
  by_cases opens : top.isOpenParen = true
  · exact .inr (.inl opens)
  · have looser : top.precedence < (Token.operator symbol).precedence := by
      simpa [bindsFirst, opens] using stops
    refine .inr (.inr (.inr ⟨Bool.eq_false_iff.mpr fun function => ?_, looser⟩))
    obtain ⟨name, rfl⟩ := top.isFunction_iff.mp function
    obtain ⟨f, rfl⟩ := known name rfl
    have tightest := (Token.operator symbol).precedence_le
    rw [Token.precedence_function] at looser
    omega

/-- A step keeps what waits in order. -/
theorem Takes.ordered (takes : Takes mode waiting token later) (known : KnowsFunctions [token])
    (ordered : Ordered waiting.operators) : Ordered later.operators := by
  refine ⟨fun top member => ?_, fun name member => ?_, ?_⟩
  · rcases takes.mem_operators member with waited | ⟨rfl, waits⟩
    · exact ordered.waits top waited
    · exact waits
  · rcases takes.mem_operators member with waited | ⟨rfl, -⟩
    · exact ordered.known name waited
    · exact known name (List.mem_singleton_self _)
  · have layered := ordered.layered
    cases takes with
    | number | percent => exact layered
    | wait waits =>
      exact layered.cons fun top _ => waits.elim (fun function => .inr (.inr (.inl function))) .inl
    | @operator values next applied rest symbol other ran first stops =>
      refine layered.right_of_append.cons fun top head => mayLieOn_of_stops ?_ (stops top head)
      rintro name rfl
      exact ordered.known name (List.mem_append_right _ (List.mem_of_mem_head? head))
    | close ran inside uncalled => exact layered.right_of_append.tail
    | call ran inside called => exact layered.right_of_append.tail.tail

/-- A run keeps what waits in order. -/
theorem ordered_of_feedAll (noConstant : ∀ token ∈ tokens, token.isConstant = false)
    (known : KnowsFunctions tokens) (ordered : Ordered waiting.operators)
    (success : feedAll mode waiting tokens = .ok later) : Ordered later.operators := by
  induction tokens generalizing waiting with
  | nil =>
    cases success
    exact ordered
  | cons token tokens ih =>
    obtain ⟨first, rest⟩ := List.forall_mem_cons.mp noConstant
    rw [feedAll_cons] at success
    obtain ⟨middle, taken, success⟩ := bind_eq_ok_iff.mp success
    have step := (takes_of_feed first taken).ordered
      (fun name member => known name (List.mem_cons.mpr (.inl (List.mem_singleton.mp member)))) ordered
    exact ih rest (fun name member => known name (List.mem_cons_of_mem _ member)) step success

private theorem exists_functions_append_operators (layered : segment.IsChain MayLieOn)
    (waits : ∀ token ∈ segment, token.canWait = true)
    (noParen : ∀ token ∈ segment, token.isOpenParen = false) :
    ∃ functions operators, segment = functions ++ operators ∧
      (∀ token ∈ functions, token.isFunction = true) ∧
        (∀ token ∈ operators, token.isOperator = true) ∧
          operators.IsChain fun upper lower => lower.precedence < upper.precedence := by
  induction segment with
  | nil => exact ⟨[], [], rfl, by simp, by simp, .nil⟩
  | cons token segment ih =>
    obtain ⟨tokenWaits, waits⟩ := List.forall_mem_cons.mp waits
    obtain ⟨tokenNoParen, noParen⟩ := List.forall_mem_cons.mp noParen
    obtain ⟨functions, operators, rfl, areFunctions, areOperators, descends⟩ :=
      ih layered.tail waits noParen
    by_cases function : token.isFunction = true
    · exact ⟨token :: functions, operators, rfl, List.forall_mem_cons.mpr ⟨function, areFunctions⟩,
        areOperators, descends⟩
    · have noFunction : token.isFunction = false := Bool.eq_false_iff.mpr function
      have operator := Token.isOperator_of_canWait tokenWaits tokenNoParen noFunction
      have below : ∀ lower ∈ (functions ++ operators).head?,
          lower.isFunction = false ∧ lower.precedence < token.precedence := by
        intro lower head
        have lowerNoParen := noParen lower (List.mem_of_mem_head? head)
        simpa [MayLieOn, tokenNoParen, lowerNoParen, noFunction] using layered.rel_head? head
      -- An operator lies on no function, so there is none in this part.
      obtain rfl : functions = [] := by
        cases functions with
        | nil => rfl
        | cons first functions =>
          have isFunction := areFunctions first (List.mem_cons_self ..)
          exact absurd ((below first rfl).1.symm.trans isFunction) Bool.false_ne_true
      exact ⟨[], token :: operators, rfl, by simp, List.forall_mem_cons.mpr ⟨operator, areOperators⟩,
        descends.cons fun lower head => (below lower head).2⟩

/-- Between parentheses an ordered stack ascends. -/
theorem Ordered.ascends (ordered : Ordered operators) (inside : segment <:+: operators)
    (noParen : ∀ token ∈ segment, token.isOpenParen = false) : Ascends segment.reverse := by
  have layered := ordered.layered.infix inside
  obtain ⟨functions, operators, rfl, areFunctions, areOperators, descends⟩ :=
    exists_functions_append_operators layered
      (fun token member => ordered.waits token (inside.subset member)) noParen
  have ascends : (operators.reverse.map Token.precedence).IsChain (· < ·) :=
    (List.isChain_map _).mpr (List.isChain_reverse.mpr descends)
  refine ⟨operators.reverse, functions.reverse, List.reverse_append, ?_, ascends.pairwise, ?_⟩
  · simpa using areOperators
  · simpa using areFunctions

/-- After every token that a run of evaluation takes, no percent sign waits, and if the functions of the
sequence are known, every part of the stack without an opening parenthesis ascends: what lies between two
neighbouring ones, below all or above all of them. The operators may have any symbols. -/
theorem waiting_operators_ascend {plain front : List Token}
    (substituted : substituteConstants tokens = .ok plain) (taken : front <+: plain)
    (ran : feedAll mode .empty front = .ok waiting) :
    Token.percentSign ∉ waiting.operators ∧ (KnowsFunctions tokens →
      ∀ segment, segment <:+: waiting.operators →
        (∀ token ∈ segment, token.isOpenParen = false) → Ascends segment.reverse) := by
  obtain ⟨-, rfl⟩ := substituteConstants_eq_ok_iff.mp substituted
  have noConstant : ∀ token ∈ front, token.isConstant = false := fun token member =>
    Token.forall_isConstant_plain tokens token (taken.subset member)
  constructor
  · intro percent
    rcases mem_operators_of_feedAll noConstant ran percent with waited | ⟨-, waits⟩
    · cases waited
    · cases waits
  · intro known segment inside noParen
    have knownFront : KnowsFunctions front := by
      intro name member
      obtain ⟨original, scanned, same⟩ := List.mem_map.mp (taken.subset member)
      cases original with
      | function other =>
        cases same
        exact known name scanned
      | _ => cases same
    exact (ordered_of_feedAll noConstant knownFront ordered_nil ran).ascends inside noParen

/-- In `1+πxsin(2` a product and a function wait on a sum, below the parenthesis. -/
theorem waiting_operators_ascend_open_call :
    let tokens : List Token := [.number 1 false, .binary .plus, .pi, .binary .times,
      .function "sin", .opening, .number 2 false]
    let plain := tokens.map Token.plain
    let waiting : Stacks := ⟨[2, Arithmetic.pi, 1],
      [.opening, .function "sin", .binary .times, .binary .plus]⟩
    substituteConstants tokens = .ok plain ∧ plain <+: plain ∧
      feedAll .radians .empty plain = .ok waiting ∧ KnowsFunctions tokens ∧
        Token.percentSign ∉ waiting.operators ∧
          Ascends [.binary .plus, .binary .times, .function "sin"] := by
  intro tokens plain waiting
  have substituted : substituteConstants tokens = .ok plain := by decide +kernel
  have ran : feedAll .radians .empty plain = .ok waiting := by decide +kernel
  have known : KnowsFunctions tokens := by
    intro name member
    have sine : name = "sin" := by
      simpa [tokens, Token.binary, Token.pi, Token.opening] using member
    exact ⟨.sin, sine⟩
  obtain ⟨noPercent, ascend⟩ := waiting_operators_ascend substituted (List.prefix_refl plain) ran
  refine ⟨substituted, List.prefix_refl plain, ran, known, noPercent, ?_⟩
  exact ascend known [.function "sin", .binary .times, .binary .plus] ⟨[.opening], [], rfl⟩
    (by decide)

end Stacks

end Calculator
