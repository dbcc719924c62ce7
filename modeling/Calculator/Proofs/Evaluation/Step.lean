import Calculator.Proofs.Evaluation.Append

/-! # What a token does to the stacks

`Stacks.Takes` lists every way in which evaluation can take a token, with all that holds then: which
operators were applied, that they could be applied, and where applying them stopped. Whoever wants to
know what a successful evaluation preserves looks at these six cases and never at a loop.
-/

namespace Calculator

/-- Evaluation takes tokens only after constants were substituted. -/
theorem Token.forall_isConstant_plain (tokens : List Token) :
    ∀ token ∈ tokens.map Token.plain, token.isConstant = false := by
  intro token member
  obtain ⟨original, -, rfl⟩ := List.mem_map.mp member
  cases original <;> rfl

namespace Stacks

variable {mode : AngleMode} {waiting later : Stacks} {values next : List Float} {token : Token}
  {operators applied rest tokens : List Token} {condition : Token → Bool} {a : Float}

/-- Applies tokens to the values, one after the other. -/
def applyAll (mode : AngleMode) (values : List Float) (tokens : List Token) :
    Except Failure (List Float) :=
  tokens.foldlM (fun values token => applyToken mode token values) values

@[simp] theorem applyAll_nil : applyAll mode values [] = .ok values := rfl

theorem applyAll_cons :
    applyAll mode values (token :: applied) =
      applyToken mode token values >>= fun next => applyAll mode next applied := rfl

theorem isOpenParen_of_applyToken (success : applyToken mode token values = .ok next) :
    token.isOpenParen = false := by
  cases token with
  | openParen symbol => cases success
  | _ => rfl

/-- No opening parenthesis can be applied. -/
theorem isOpenParen_of_applyAll (ran : applyAll mode values applied = .ok next) :
    ∀ top ∈ applied, top.isOpenParen = false := by
  induction applied generalizing values with
  | nil => simp
  | cons token applied ih =>
    rw [applyAll_cons] at ran
    obtain ⟨middle, first, ran⟩ := bind_eq_ok_iff.mp ran
    exact List.forall_mem_cons.mpr ⟨isOpenParen_of_applyToken first, ih ran⟩

/-- Operators that satisfy the condition and can be applied are out of the way. -/
theorem applyWhile_append (ran : applyAll mode values applied = .ok next)
    (holds : ∀ top ∈ applied, condition top = true) :
    applyWhile mode condition values (applied ++ rest) = applyWhile mode condition next rest := by
  induction applied generalizing values with
  | nil =>
    cases ran
    rfl
  | cons top applied ih =>
    rw [applyAll_cons] at ran
    obtain ⟨middle, first, ran⟩ := bind_eq_ok_iff.mp ran
    rw [List.cons_append, applyWhile_cons (holds top (List.mem_cons_self ..)), first]
    exact ih ran fun other member => holds other (List.mem_cons_of_mem _ member)

/-- What was applied stands on top of what is left, and stops where the condition fails. -/
theorem exists_applied (success : applyWhile mode condition values operators = .ok later) :
    ∃ applied, operators = applied ++ later.operators ∧
      applyAll mode values applied = .ok later.values ∧
      (∀ top ∈ applied, condition top = true) ∧
      ∀ top ∈ later.operators.head?, condition top = false := by
  induction operators generalizing values with
  | nil =>
    cases success
    exact ⟨[], rfl, rfl, by simp, by simp⟩
  | cons top operators ih =>
    by_cases holds : condition top = true
    · rw [applyWhile_cons holds] at success
      obtain ⟨middle, first, success⟩ := bind_eq_ok_iff.mp success
      obtain ⟨applied, split, ran, all, stops⟩ := ih success
      refine ⟨top :: applied, by rw [split, List.cons_append], ?_, ?_, stops⟩
      · rw [applyAll_cons, first]
        exact ran
      · exact List.forall_mem_cons.mpr ⟨holds, all⟩
    · have fails : condition top = false := Bool.eq_false_iff.mpr holds
      rw [applyWhile_stop (by simpa using fails)] at success
      cases success
      exact ⟨[], rfl, rfl, by simp, by simpa using fails⟩

/-- How evaluation takes a token. -/
inductive Takes (mode : AngleMode) : Stacks → Token → Stacks → Prop
  | number {values : List Float} {operators : List Token} {x : Float} {marked : Bool}
      (finite : x.isFinite = true) :
      Takes mode ⟨values, operators⟩ (.number x marked)
        ⟨(if marked then Arithmetic.hundredth x else x) :: values, operators⟩
  | percent {values : List Float} {operators : List Token} {x : Float} :
      Takes mode ⟨x :: values, operators⟩ .percentSign
        ⟨Arithmetic.hundredth x :: values, operators⟩
  | wait {waiting : Stacks} {token : Token}
      (waits : token.isFunction = true ∨ token.isOpenParen = true) :
      Takes mode waiting token (waiting.pushWaiting token)
  | operator {values next : List Float} {applied rest : List Token} {symbol : String}
      (other : symbol ≠ "%") (ran : applyAll mode values applied = .ok next)
      (first : ∀ top ∈ applied, bindsFirst (.operator symbol) top = true)
      (stops : ∀ top ∈ rest.head?, bindsFirst (.operator symbol) top = false) :
      Takes mode ⟨values, applied ++ rest⟩ (.operator symbol) ⟨next, .operator symbol :: rest⟩
  | close {values next : List Float} {applied rest : List Token} {opened closed : String}
      (ran : applyAll mode values applied = .ok next)
      (inside : ∀ top ∈ applied, top.isOpenParen = false)
      (uncalled : rest.head?.any Token.isFunction = false) :
      Takes mode ⟨values, applied ++ .openParen opened :: rest⟩ (.closeParen closed) ⟨next, rest⟩
  | call {values next last : List Float} {applied rest : List Token} {opened closed name : String}
      (ran : applyAll mode values applied = .ok next)
      (inside : ∀ top ∈ applied, top.isOpenParen = false)
      (called : applyToken mode (.function name) next = .ok last) :
      Takes mode ⟨values, applied ++ .openParen opened :: .function name :: rest⟩
        (.closeParen closed) ⟨last, rest⟩

private theorem takes_of_pushNumber {x : Float} {marked : Bool}
    (success : waiting.pushNumber (.number x marked) = .ok later) :
    Takes mode waiting (.number x marked) later := by
  unfold pushNumber at success
  split_ifs at success with finite percentage
  · cases success
    obtain rfl : marked = true := percentage
    exact .number finite
  · cases success
    obtain rfl : marked = false := Bool.eq_false_iff.mpr percentage
    exact .number finite

private theorem takes_of_applyPercent (success : waiting.applyPercent = .ok later) :
    Takes mode waiting .percentSign later := by
  rcases waiting with ⟨values, operators⟩
  cases values with
  | nil => cases success
  | cons x values =>
    cases success
    exact .percent

private theorem takes_of_pushOperator {symbol : String} (other : symbol ≠ "%")
    (success : waiting.pushOperator mode (.operator symbol) = .ok later) :
    Takes mode waiting (.operator symbol) later := by
  rcases waiting with ⟨values, operators⟩
  rw [pushOperator_eq] at success
  obtain ⟨remaining, success, pushed⟩ := bind_eq_ok_iff.mp success
  obtain ⟨applied, rfl, ran, first, stops⟩ := exists_applied success
  cases pushed
  exact .operator other ran first stops

private theorem takes_of_closeGroup {closed : String}
    (success : waiting.closeGroup mode = .ok later) :
    Takes mode waiting (.closeParen closed) later := by
  rcases waiting with ⟨values, operators⟩
  rw [closeGroup_eq] at success
  obtain ⟨⟨next, remaining⟩, success, closes⟩ := bind_eq_ok_iff.mp success
  obtain ⟨applied, rfl, ran, inside, stops⟩ := exists_applied success
  replace inside : ∀ top ∈ applied, top.isOpenParen = false := by simpa using inside
  cases remaining with
  | nil => cases closes
  | cons top rest =>
    obtain ⟨opened, rfl⟩ := top.isOpenParen_iff.mp (by simpa using stops)
    change (if rest.head?.any Token.isFunction then applyTop mode ⟨next, rest⟩
      else .ok ⟨next, rest⟩) = .ok later at closes
    by_cases called : rest.head?.any Token.isFunction = true
    · rw [if_pos called] at closes
      cases rest with
      | nil => cases called
      | cons top rest =>
        obtain ⟨name, rfl⟩ := top.isFunction_iff.mp called
        obtain ⟨last, call, closes⟩ := bind_eq_ok_iff.mp closes
        cases closes
        exact .call ran inside call
    · rw [if_neg called] at closes
      cases closes
      exact .close ran inside (Bool.eq_false_iff.mpr called)

/-- Whatever evaluation does with a token is one of the cases. -/
theorem takes_of_feed (noConstant : token.isConstant = false)
    (success : feed mode waiting token = .ok later) : Takes mode waiting token later := by
  cases token with
  | number x marked => exact takes_of_pushNumber success
  | function name =>
    cases success
    exact .wait (.inl rfl)
  | openParen symbol =>
    cases success
    exact .wait (.inr rfl)
  | closeParen symbol => exact takes_of_closeGroup success
  | constant name => contradiction
  | operator symbol =>
    by_cases percent : symbol = "%"
    · subst percent
      exact takes_of_applyPercent success
    · have other : Token.operator symbol ≠ .percentSign := by simpa [Token.percentSign] using percent
      rw [feed, if_neg other] at success
      · exact takes_of_pushOperator percent success
      all_goals simp

/-- Evaluation does what the cases say. -/
theorem Takes.feed_eq (takes : Takes mode waiting token later) :
    feed mode waiting token = .ok later := by
  cases takes with
  | number finite => rw [feed, pushNumber, Token.value, if_pos finite]; rfl
  | percent => rfl
  | wait waits =>
    rcases waits with waits | waits
    · obtain ⟨name, rfl⟩ := token.isFunction_iff.mp waits
      rfl
    · obtain ⟨symbol, rfl⟩ := token.isOpenParen_iff.mp waits
      rfl
  | @operator values next applied rest symbol other ran first stops =>
    have noPercent : Token.operator symbol ≠ .percentSign := by simpa [Token.percentSign] using other
    rw [feed, if_neg noPercent, pushOperator_eq, applyWhile_append ran first, applyWhile_stop stops]
    · rfl
    all_goals simp
  | @close values next applied rest opened closed ran inside uncalled =>
    have holds : ∀ top ∈ applied, (!top.isOpenParen) = true := by simpa using inside
    rw [feed, closeGroup_eq, applyWhile_append ran holds, applyWhile_stop (by simp [Token.isOpenParen]),
      ok_bind]
    simp [uncalled]
  | @call values next last applied rest opened closed name ran inside called =>
    have holds : ∀ top ∈ applied, (!top.isOpenParen) = true := by simpa using inside
    rw [feed, closeGroup_eq, applyWhile_append ran holds, applyWhile_stop (by simp [Token.isOpenParen]),
      ok_bind]
    simp only [List.head?_cons, Option.any_some, Token.isFunction, if_true, applyTop, called]
    rfl

/-- After a step nothing waits but what waited before and the token itself, if it is one that can wait. -/
theorem Takes.mem_operators (takes : Takes mode waiting token later) {top : Token}
    (member : top ∈ later.operators) :
    top ∈ waiting.operators ∨ top = token ∧ token.canWait = true := by
  cases takes with
  | number | percent => exact .inl member
  | wait waits =>
    refine (List.mem_cons.mp member).symm.imp_right fun same => ⟨same, ?_⟩
    rcases waits with waits | waits
    · obtain ⟨name, rfl⟩ := token.isFunction_iff.mp waits
      rfl
    · obtain ⟨symbol, rfl⟩ := token.isOpenParen_iff.mp waits
      rfl
  | operator other ran first stops =>
    rcases List.mem_cons.mp member with same | below
    · exact .inr ⟨same, by simpa [Token.canWait] using other⟩
    · exact .inl (List.mem_append_right _ below)
  | close ran inside uncalled => exact .inl (List.mem_append_right _ (.tail _ member))
  | call ran inside called => exact .inl (List.mem_append_right _ (.tail _ (.tail _ member)))

/-- After a run nothing waits but what waited before and tokens of the run that can wait. -/
theorem mem_operators_of_feedAll (noConstant : ∀ token ∈ tokens, token.isConstant = false)
    (success : feedAll mode waiting tokens = .ok later) {top : Token} (member : top ∈ later.operators) :
    top ∈ waiting.operators ∨ top ∈ tokens ∧ top.canWait = true := by
  induction tokens generalizing waiting with
  | nil =>
    cases success
    exact .inl member
  | cons token tokens ih =>
    obtain ⟨first, rest⟩ := List.forall_mem_cons.mp noConstant
    rw [feedAll_cons] at success
    obtain ⟨middle, taken, success⟩ := bind_eq_ok_iff.mp success
    rcases ih rest success with waited | ⟨fed, waits⟩
    · rcases (takes_of_feed first taken).mem_operators waited with before | ⟨rfl, waits⟩
      · exact .inl before
      · exact .inr ⟨List.mem_cons_self .., waits⟩
    · exact .inr ⟨List.mem_cons_of_mem _ fed, waits⟩

/-- What a sequence that evaluates leaves behind: everything that waits can be applied, and then its
value is alone. -/
theorem exists_run_of_evaluateTokens (success : evaluateTokens mode tokens = .ok a) :
    (∀ name, Token.constant name ∈ tokens → name = "π") ∧
      ∃ waiting, feedAll mode .empty (tokens.map Token.plain) = .ok waiting ∧
        applyAll mode waiting.values waiting.operators = .ok [a] := by
  obtain ⟨waiting, fed, applied⟩ := exists_after_of_evaluateTokens success
  obtain ⟨plain, substituted, fed⟩ := bind_eq_ok_iff.mp fed
  obtain ⟨known, rfl⟩ := substituteConstants_eq_ok_iff.mp substituted
  obtain ⟨all, split, ran, -, -⟩ := exists_applied applied
  obtain rfl : waiting.operators = all := by simpa using split
  exact ⟨known, waiting, fed, ran⟩

end Stacks

end Calculator
