import Calculator.Proofs.Evaluation.Accounting
import Calculator.Proofs.Grammar

/-! # Operands without signs

An opening parenthesis keeps what waits below it until it is closed. So behind a number, a constant, a group
or a call nothing waits that was not there before, and a bare operand that can be taken at all leaves just
one value.
-/

namespace Calculator

/-- The operands that do not end with a sign. -/
inductive Bare : List Token → Prop
  | number (x : Float) (marked : Bool) : Bare [.number x marked]
  | constant (name : String) : Bare [.constant name]
  | group {inner : List Token} (opened closed : String) (expression : Derives .expression inner) :
      Bare (.openParen opened :: (inner ++ [.closeParen closed]))
  | call {inner : List Token} (name opened closed : String) (argument : Derives .expression inner) :
      Bare (.function name :: .openParen opened :: (inner ++ [.closeParen closed]))

/-- Substituting constants keeps parentheses balanced. -/
theorem Token.Balanced.plain {inner : List Token} (balanced : Token.Balanced inner) :
    Token.Balanced (inner.map Token.plain) := by
  constructor
  · intro front part
    obtain ⟨original, inside, rfl⟩ := List.prefix_map_iff.mp part
    rw [Token.countP_plain _ fun _ => rfl, Token.countP_plain _ fun _ => rfl]
    exact balanced.neverOvercloses original inside
  · rw [Token.countP_plain _ fun _ => rfl, Token.countP_plain _ fun _ => rfl]
    exact balanced.closed

section Suffix

variable {applied rest below : List Token} {opened other : Token}

private theorem suffix_of_applied (inside : ∀ top ∈ applied, top.isOpenParen = false)
    (opens : opened.isOpenParen = true) (kept : opened :: below <:+ applied ++ rest) :
    opened :: below <:+ rest := by
  rcases List.suffix_or_suffix_of_suffix kept (List.suffix_append applied rest) with within | beyond
  · exact within
  · obtain ⟨between, split⟩ := beyond
    cases between with
    | nil =>
      rw [List.nil_append] at split
      rw [split]
    | cons top between =>
      obtain ⟨rfl, rfl⟩ := List.cons.inj split
      obtain ⟨above, whole⟩ := kept
      have upper : above ++ top :: between = applied := by
        have same : above ++ top :: between ++ rest = applied ++ rest := by
          rw [List.append_assoc]
          exact whole
        exact List.append_cancel_right same
      have member : top ∈ applied := by simp [← upper]
      exact absurd opens (Bool.eq_false_iff.mp (inside top member))

end Suffix

namespace Stacks

variable {mode : AngleMode} {waiting later : Stacks} {token opened : Token}
  {below tokens base : List Token}

private theorem suffix_of_lt {applied rest : List Token} {symbol : String}
    (inside : ∀ top ∈ applied, top.isOpenParen = false) (opens : opened.isOpenParen = true)
    (kept : opened :: below <:+ applied ++ .openParen symbol :: rest)
    (deeper : (opened :: below).countP Token.isOpenParen <
      (applied ++ .openParen symbol :: rest).countP Token.isOpenParen) : opened :: below <:+ rest := by
  rw [List.countP_append, countP_isOpenParen_eq_zero inside, Nat.zero_add] at deeper
  rcases List.suffix_cons_iff.mp (suffix_of_applied inside opens kept) with same | below
  · rw [same] at deeper
    exact absurd deeper (Nat.lt_irrefl _)
  · exact below

private theorem eq_of_suffix {applied rest : List Token} {symbol : String}
    (inside : ∀ top ∈ applied, top.isOpenParen = false) (opens : opened.isOpenParen = true)
    (kept : opened :: below <:+ applied ++ .openParen symbol :: rest)
    (innermost : (applied ++ .openParen symbol :: rest).countP Token.isOpenParen ≤
      (opened :: below).countP Token.isOpenParen) : below = rest := by
  rw [List.countP_append, countP_isOpenParen_eq_zero inside, Nat.zero_add] at innermost
  rcases List.suffix_cons_iff.mp (suffix_of_applied inside opens kept) with same | deeper
  · exact (List.cons.inj same).2
  · have fewer := deeper.sublist.countP_le (p := Token.isOpenParen)
    simp only [List.countP_cons, Token.isOpenParen, if_true] at innermost fewer
    omega

/-- A step keeps what waits below an opening parenthesis, unless it closes this very parenthesis. -/
theorem Takes.suffix (takes : Takes mode waiting token later) (opens : opened.isOpenParen = true)
    (kept : opened :: below <:+ waiting.operators)
    (inner : token.isCloseParen = true →
      (opened :: below).countP Token.isOpenParen < waiting.operators.countP Token.isOpenParen) :
    opened :: below <:+ later.operators := by
  cases takes with
  | number | percent => exact kept
  | wait waits => exact kept.trans (List.suffix_cons ..)
  | operator other ran first stops =>
    exact (suffix_of_applied (isOpenParen_of_applyAll ran) opens kept).trans (List.suffix_cons ..)
  | close ran inside uncalled => exact suffix_of_lt inside opens kept (inner rfl)
  | @call _ _ _ _ _ _ _ name ran inside called =>
    have noFunction : ∀ top ∈ [Token.function name], top.isOpenParen = false := by
      simp [Token.isOpenParen]
    exact suffix_of_applied noFunction opens (suffix_of_lt inside opens kept (inner rfl))

/-- A run keeps what waits below an opening parenthesis for as long as it does not close it. -/
theorem suffix_of_feedAll (noConstant : ∀ token ∈ tokens, token.isConstant = false)
    (opens : opened.isOpenParen = true) (kept : opened :: below <:+ waiting.operators)
    (inner : ∀ front, front <+: tokens →
      front.countP Token.isCloseParen + (opened :: below).countP Token.isOpenParen ≤
        waiting.operators.countP Token.isOpenParen + front.countP Token.isOpenParen)
    (success : feedAll mode waiting tokens = .ok later) : opened :: below <:+ later.operators := by
  induction tokens generalizing waiting with
  | nil =>
    cases success
    exact kept
  | cons token tokens ih =>
    obtain ⟨first, rest⟩ := List.forall_mem_cons.mp noConstant
    rw [feedAll_cons] at success
    obtain ⟨middle, taken, success⟩ := bind_eq_ok_iff.mp success
    have takes := takes_of_feed first taken
    have account := takes.parentheses
    refine ih rest (takes.suffix opens kept fun closes => ?_) (fun front inside => ?_) success
    · have now := inner [token] (List.prefix_cons_iff.mpr (.inr ⟨[], rfl, List.nil_prefix⟩))
      have notOpen : token.isOpenParen = false := by
        cases token <;> first | rfl | cases closes
      simp only [List.countP_singleton, closes, notOpen, if_true, Bool.false_eq_true, if_false] at now
      omega
    · have whole := inner (token :: front) (List.cons_prefix_cons.mpr ⟨rfl, inside⟩)
      rw [← List.singleton_append, List.countP_append, List.countP_append] at whole
      omega

/-- Behind a group nothing waits that did not wait in front of it, and the function in front of it does
not wait any more. -/
theorem operators_of_group {inner : List Token} {symbol closed : String}
    (noConstant : ∀ token ∈ inner, token.isConstant = false) (balanced : Token.Balanced inner)
    (success : feedAll mode waiting (.openParen symbol :: (inner ++ [.closeParen closed])) = .ok later) :
    later.operators =
      if waiting.operators.head?.any Token.isFunction then waiting.operators.tail
      else waiting.operators := by
  have start : feed mode waiting (.openParen symbol) = .ok (waiting.pushWaiting (.openParen symbol)) := rfl
  rw [feedAll_cons, start, ok_bind, feedAll_append] at success
  obtain ⟨⟨values, operators⟩, fed, closes⟩ := bind_eq_ok_iff.mp success
  rw [feedAll_singleton] at closes
  have equal := balanced.closed
  have account := (accounts_of_feedAll noConstant fed).1
  have kept : .openParen symbol :: waiting.operators <:+ operators := by
    refine suffix_of_feedAll noConstant rfl (List.suffix_refl _) (fun front part => ?_) fed
    have never := balanced.neverOvercloses front part
    change _ + (Token.openParen symbol :: waiting.operators).countP Token.isOpenParen ≤
      (Token.openParen symbol :: waiting.operators).countP Token.isOpenParen + _
    omega
  have innermost : operators.countP Token.isOpenParen ≤
      (Token.openParen symbol :: waiting.operators).countP Token.isOpenParen := by
    change operators.countP Token.isOpenParen + inner.countP Token.isCloseParen =
      (Token.openParen symbol :: waiting.operators).countP Token.isOpenParen +
        inner.countP Token.isOpenParen at account
    omega
  cases takes_of_feed rfl closes with
  | close ran inside uncalled =>
    rw [eq_of_suffix inside rfl kept innermost, uncalled]
    rfl
  | call ran inside called =>
    rw [eq_of_suffix inside rfl kept innermost]
    rfl
  | wait waits => rcases waits with waits | waits <;> cases waits

private theorem operators_of_number {x : Float} {marked : Bool}
    (success : feed mode waiting (.number x marked) = .ok later) :
    later.operators = waiting.operators := by
  cases takes_of_feed rfl success with
  | number finite => rfl
  | wait waits => rcases waits with waits | waits <;> cases waits

/-- Behind a bare operand nothing waits. -/
theorem operators_of_bare (bare : Bare base)
    (success : feedAll mode .empty (base.map Token.plain) = .ok later) : later.operators = [] := by
  have group (inner : List Token) (symbol closed : String) :
      (Token.openParen symbol :: (inner ++ [.closeParen closed])).map Token.plain =
        .openParen symbol :: (inner.map Token.plain ++ [.closeParen closed]) := by
    simp [Token.plain]
  cases bare with
  | number x marked =>
    rw [List.map_singleton, feedAll_singleton] at success
    exact operators_of_number success
  | constant name =>
    rw [List.map_singleton, feedAll_singleton] at success
    exact operators_of_number success
  | @group inner opened closed expression =>
    rw [group] at success
    exact operators_of_group (Token.forall_isConstant_plain inner) expression.balanced.plain success
  | @call inner name opened closed argument =>
    rw [List.map_cons, group, feedAll_cons] at success
    change feedAll mode ⟨[], [.function name]⟩ _ = .ok later at success
    exact operators_of_group (Token.forall_isConstant_plain inner) argument.balanced.plain success

/-- A bare operand in front of a sequence that evaluates leaves one value. -/
theorem after_bare (bare : Bare base) (single : base.countP Token.isOperand = base.countP Token.isBinary + 1)
    (success : after mode base = .ok later) : ∃ b, later = ⟨[b], []⟩ := by
  obtain ⟨plain, substituted, fed⟩ := bind_eq_ok_iff.mp success
  obtain ⟨-, rfl⟩ := substituteConstants_eq_ok_iff.mp substituted
  have none := operators_of_bare bare fed
  have account := (accounts_of_feedAll (Token.forall_isConstant_plain base) fed).2
  rw [Token.countP_plain Token.isOperand fun _ => rfl,
    Token.countP_plain Token.isBinary fun _ => rfl, none] at account
  have length : later.values.length = 1 := by
    simp only [Stacks.empty, consumedBy, List.length_nil] at account
    omega
  obtain ⟨b, sole⟩ := List.length_eq_one_iff.mp length
  rcases later with ⟨values, operators⟩
  exact ⟨b, congrArg₂ Stacks.mk sole none⟩

end Stacks

end Calculator
