import Calculator.Proofs.Evaluation.Accounting
import Calculator.Proofs.Grammar
import Calculator.Proofs.Product

/-! # What evaluation accepts

Only the sequences of the grammar should evaluate, but evaluation counts values and never looks where they
came from. So it lets pass an operator on the wrong side of its operands, a group with nothing in it, and a
function that is not called. Nothing else gets through: if every sign, operator, parenthesis and function
stands where the grammar puts it, an operand that follows another one directly makes one operand too many,
and the count is refused.
-/

namespace Calculator

/-- Whether an operator is one that can be applied: a trailing sign or a binary operator. -/
def Token.isKnown : Token → Bool
  | operator symbol => (operator symbol).isTrailing || (operator symbol).isBinary
  | _ => true

namespace Stacks

variable {mode : AngleMode} {waiting later : Stacks} {values next : List Float} {token : Token}
  {applied tokens : List Token}

/-- An unknown operator fails where it is applied. -/
theorem isKnown_of_applyToken (success : applyToken mode token values = .ok next) :
    token.isKnown = true := by
  cases token with
  | operator symbol =>
    rw [applyToken_eq] at success
    change (Action.ofSymbol symbol).run values = .ok next at success
    unfold Action.ofSymbol at success
    split_ifs at success with factorial
    · subst factorial
      rfl
    · cases found : BinaryOperator.ofSymbol? symbol with
      | none =>
        rw [found] at success
        cases success
      | some operator => simp [Token.isKnown, Token.isBinary, found]
  | _ => rfl

theorem isKnown_of_applyAll (ran : applyAll mode values applied = .ok next) :
    ∀ top ∈ applied, top.isKnown = true := by
  induction applied generalizing values with
  | nil => simp
  | cons token applied ih =>
    rw [applyAll_cons] at ran
    obtain ⟨middle, first, ran⟩ := bind_eq_ok_iff.mp ran
    exact List.forall_mem_cons.mpr ⟨isKnown_of_applyToken first, ih ran⟩

/-- An operator that a step takes or finds waiting still waits afterwards, unless it is known. -/
theorem Takes.isKnown_or_waits (takes : Takes mode waiting token later) :
    ∀ top ∈ token :: waiting.operators, top.isKnown = true ∨ top ∈ later.operators := by
  refine List.forall_mem_cons.mpr ?_
  cases takes with
  | number finite => exact ⟨.inl rfl, fun top member => .inr member⟩
  | percent => exact ⟨.inl rfl, fun top member => .inr member⟩
  | wait waits => exact ⟨.inr (List.mem_cons_self ..), fun top member => .inr (.tail _ member)⟩
  | @operator _ _ applied rest symbol other ran first stops =>
    refine ⟨.inr (List.mem_cons_self ..), fun top member => ?_⟩
    rcases List.mem_append.mp member with inside | outside
    · exact .inl (isKnown_of_applyAll ran top inside)
    · exact .inr (.tail _ outside)
  | @close _ _ applied rest opened closed ran inside uncalled =>
    refine ⟨.inl rfl, fun top member => ?_⟩
    rcases List.mem_append.mp member with within | outside
    · exact .inl (isKnown_of_applyAll ran top within)
    · rcases List.mem_cons.mp outside with rfl | outside
      · exact .inl rfl
      · exact .inr outside
  | @call _ _ _ applied rest opened closed name ran inside called =>
    refine ⟨.inl rfl, fun top member => ?_⟩
    rcases List.mem_append.mp member with within | outside
    · exact .inl (isKnown_of_applyAll ran top within)
    · rcases List.mem_cons.mp outside with rfl | outside
      · exact .inl rfl
      · rcases List.mem_cons.mp outside with rfl | outside
        · exact .inl rfl
        · exact .inr outside

/-- A run leaves no operator behind that is unknown and does not wait. -/
theorem isKnown_or_waits_of_feedAll (noConstant : ∀ token ∈ tokens, token.isConstant = false)
    (success : feedAll mode waiting tokens = .ok later) :
    ∀ top ∈ waiting.operators ++ tokens, top.isKnown = true ∨ top ∈ later.operators := by
  induction tokens generalizing waiting with
  | nil =>
    cases success
    intro top member
    exact .inr (by simpa using member)
  | cons token tokens ih =>
    obtain ⟨first, rest⟩ := List.forall_mem_cons.mp noConstant
    rw [feedAll_cons] at success
    obtain ⟨middle, taken, success⟩ := bind_eq_ok_iff.mp success
    have step := (takes_of_feed first taken).isKnown_or_waits
    have run := ih rest success
    intro top member
    have now : top ∈ token :: waiting.operators ∨ top ∈ tokens := by
      simpa [or_assoc, or_left_comm, or_comm] using member
    rcases now with now | after
    · rcases step top now with known | waits
      · exact .inl known
      · exact run top (List.mem_append_left _ waits)
    · exact run top (List.mem_append_right _ after)

end Stacks

/-- A sequence that evaluates has only operators that can be applied. -/
theorem isKnown_of_evaluateTokens {mode : AngleMode} {tokens : List Token} {x : Float}
    (success : evaluateTokens mode tokens = .ok x) : ∀ token ∈ tokens, token.isKnown = true := by
  obtain ⟨-, waiting, fed, ran⟩ := Stacks.exists_run_of_evaluateTokens success
  intro token member
  have taken : token.plain ∈ Stacks.empty.operators ++ tokens.map Token.plain :=
    List.mem_append_right _ (List.mem_map_of_mem member)
  have settled : token.plain.isKnown = true :=
    (Stacks.isKnown_or_waits_of_feedAll (Token.forall_isConstant_plain tokens) fed _ taken).elim id
      (Stacks.isKnown_of_applyAll ran _)
  cases token with
  | operator symbol => exact settled
  | _ => rfl

/-- Whether a token with neighbours stands where the grammar puts it: a trailing sign behind an operand,
a binary operator between an operand and the start of another one, a parenthesis in front of something
that it encloses, and a function in front of a parenthesis. -/
def Token.isPlaced (place : Place) (next : Option Token) (token : Token) : Bool :=
  if token.isTrailing then place = .operator
  else if token.isBinary then place = .operator && next.any startsOperand
  else if token.isOpenParen then !next.any isCloseParen
  else if token.isFunction then next.any isOpenParen
  else true

/-- Whether every token stands where the grammar puts it. Operands may follow each other directly, and
parentheses need not be balanced. -/
def placedFrom (place : Place) : List Token → Bool
  | [] => true
  | token :: rest => token.isPlaced place rest.head? && placedFrom token.place rest

/-- What can come at a place, if tokens are placed and parentheses are balanced. -/
def Place.expects : Place → Option Token → Bool
  | operand, next => next.any fun token => !token.isCloseParen
  | argument, next => next.any Token.isOpenParen
  | operator, _ => true

/-- How many values a place is ahead of the binary operators before it. -/
def Place.held : Place → Nat
  | operand | argument => 0
  | operator => 1

section Placed

variable {tokens rest : List Token} {place : Place} {token : Token} {next : Option Token}

theorem placedFrom_cons :
    placedFrom place (token :: rest) = true ↔
      token.isPlaced place rest.head? = true ∧ placedFrom token.place rest = true := by
  rw [placedFrom, Bool.and_eq_true]

theorem Token.isTrailing_binary (operator : BinaryOperator) : (binary operator).isTrailing = false := by
  cases operator <;> decide

theorem Token.isBinary_binary (operator : BinaryOperator) : (binary operator).isBinary = true :=
  (isBinary_iff _).mpr ⟨operator, rfl⟩

/-- An operator that can be applied is a trailing sign or a binary operator. -/
theorem Token.trailing_or_binary {symbol : String} (known : (operator symbol).isKnown = true) :
    (operator symbol).isTrailing = true ∨ ∃ sign, operator symbol = binary sign := by
  rw [isKnown, Bool.or_eq_true] at known
  exact known.imp id (isBinary_iff _).mp

theorem Token.isBinary_of_isTrailing (trailing : token.isTrailing = true) :
    token.isBinary = false := by
  rcases (isTrailing_iff token).mp trailing with rfl | rfl <;> rfl

theorem Token.place_of_isTrailing (trailing : token.isTrailing = true) :
    token.place = .operator := by
  rcases (isTrailing_iff token).mp trailing with rfl | rfl <;> rfl

/-- An operator is admitted behind a complete operand only. -/
theorem Place.operator_of_admits {symbol : String}
    (admitted : place.admits (.operator symbol) = true) :
    place = .operator ∧ (Token.operator symbol).isKnown = true := by
  cases place with
  | operand | argument => cases admitted
  | operator =>
    have noClosing : (Token.operator symbol).isCloseParen = false := rfl
    rw [admits, noClosing, Bool.or_false] at admitted
    exact ⟨rfl, admitted⟩

/-- Something comes where it is called for. -/
theorem head?_of_linkedFrom (linked : linkedFrom place tokens = true) :
    place = .operator ∨ tokens.head?.any place.admits = true := by
  cases tokens with
  | nil => exact .inl (of_decide_eq_true linked)
  | cons token rest => exact .inr (linkedFrom_cons.mp linked).1

theorem Token.noClosing_of_startsOperand (starts : next.any startsOperand = true) :
    (!next.any isCloseParen) = true := by
  cases next with
  | none => rfl
  | some token => cases token <;> simp_all [startsOperand, isCloseParen]

/-- A token that the grammar admits, and behind which it admits the next one, is placed. -/
theorem Token.isPlaced_of_linkedFrom (admitted : place.admits token = true)
    (linked : linkedFrom token.place rest = true) : token.isPlaced place rest.head? = true := by
  have next := head?_of_linkedFrom linked
  cases token with
  | number | constant | closeParen => rfl
  | function name => exact next.resolve_left nofun
  | openParen symbol =>
    have starts : rest.head?.any startsOperand = true := next.resolve_left nofun
    exact noClosing_of_startsOperand starts
  | operator symbol =>
    obtain ⟨rfl, known⟩ := Place.operator_of_admits admitted
    rcases trailing_or_binary known with trailing | ⟨sign, same⟩
    · simp [isPlaced, trailing]
    · rw [same, place_binary] at next
      have starts : rest.head?.any startsOperand = true := next.resolve_left nofun
      simp [same, isPlaced, isTrailing_binary, isBinary_binary, starts]

/-- Neighbours that the grammar allows are placed. -/
theorem placedFrom_of_linkedFrom (linked : linkedFrom place tokens = true) :
    placedFrom place tokens = true := by
  induction tokens generalizing place with
  | nil => rfl
  | cons token rest ih =>
    obtain ⟨admitted, later⟩ := linkedFrom_cons.mp linked
    exact placedFrom_cons.mpr ⟨Token.isPlaced_of_linkedFrom admitted later, ih later⟩

/-- Behind a token that is placed comes what its place expects. -/
theorem Token.expects_of_isPlaced (known : token.isKnown = true)
    (placed : token.isPlaced place next = true)
    (continued : token.isOpenParen = true → next.isSome = true) :
    token.place.expects next = true := by
  cases token with
  | number | constant | closeParen => rfl
  | function name => exact placed
  | openParen symbol =>
    have noClosing : (!next.any isCloseParen) = true := placed
    cases next with
    | none => cases continued rfl
    | some token => exact noClosing
  | operator symbol =>
    rcases trailing_or_binary known with trailing | ⟨sign, same⟩
    · rw [place_of_isTrailing trailing]
      rfl
    · have starts : next.any startsOperand = true := by
        simp [same, isPlaced, isTrailing_binary, isBinary_binary] at placed
        simp [placed]
      have noClosing := noClosing_of_startsOperand starts
      rw [same, place_binary]
      cases next with
      | none => cases starts
      | some token => exact noClosing

/-- A token that is placed adds at most as many operators as operands, and exactly as many only if the
grammar allows it there. -/
theorem Token.counts_of_isPlaced (known : token.isKnown = true)
    (placed : token.isPlaced place next = true) (expected : place.expects (some token) = true) :
    [token].countP isBinary + token.place.held ≤ [token].countP isOperand + place.held ∧
      ([token].countP isBinary + token.place.held = [token].countP isOperand + place.held →
        place.admits token = true) := by
  cases token with
  -- Where an operand starts behind a complete one the inequality is strict.
  | number | constant | function | openParen | closeParen =>
    cases place <;>
      simp [Place.expects, isOpenParen, isCloseParen] at expected <;>
      simp [Token.place, Place.held, Place.admits, startsOperand, isOpenParen, isCloseParen, isBinary,
        isOperand]
  | operator symbol =>
    have noOperand : (operator symbol).isOperand = false := rfl
    rcases trailing_or_binary known with trailing | ⟨sign, same⟩
    · obtain rfl : place = .operator := by simpa [isPlaced, trailing] using placed
      simp [isBinary_of_isTrailing trailing, place_of_isTrailing trailing, noOperand, Place.admits,
        trailing]
    · rw [same] at placed noOperand ⊢
      have between : place = .operator ∧ next.any startsOperand = true := by
        simpa [isPlaced, isTrailing_binary, isBinary_binary] using placed
      obtain ⟨rfl, -⟩ := between
      refine ⟨?_, fun _ => Place.admits_binary sign⟩
      simp [isBinary_binary, place_binary, noOperand, Place.held]

/-- Tokens that are placed have more operands than binary operators, and one more only if the grammar
allows every one of them where it stands. -/
theorem counts_of_placedFrom (known : ∀ token ∈ tokens, token.isKnown = true)
    (placed : placedFrom place tokens = true) (expected : place.expects tokens.head? = true)
    (ends : tokens.getLast?.any Token.isOpenParen = false) :
    tokens.countP Token.isBinary + 1 ≤ tokens.countP Token.isOperand + place.held ∧
      (tokens.countP Token.isBinary + 1 = tokens.countP Token.isOperand + place.held →
        linkedFrom place tokens = true) := by
  induction tokens generalizing place with
  | nil =>
    have complete : place = .operator := by
      cases place <;> simp_all [Place.expects]
    subst complete
    exact ⟨Nat.le_refl 1, fun _ => rfl⟩
  | cons token rest ih =>
    obtain ⟨first, others⟩ := List.forall_mem_cons.mp known
    obtain ⟨here, later⟩ := placedFrom_cons.mp placed
    have continued : token.isOpenParen = true → rest.head?.isSome = true := by
      intro opens
      cases rest with
      | nil => simp [opens] at ends
      | cons next rest => rfl
    have endsLater : rest.getLast?.any Token.isOpenParen = false := by
      cases rest with
      | nil => rfl
      | cons next rest => rwa [List.getLast?_cons_cons] at ends
    obtain ⟨now, nowLinked⟩ := Token.counts_of_isPlaced first here expected
    obtain ⟨after, afterLinked⟩ :=
      ih others later (Token.expects_of_isPlaced first here continued) endsLater
    rw [← List.singleton_append, List.countP_append, List.countP_append]
    refine ⟨by omega, fun equal => linkedFrom_cons.mpr ⟨nowLinked (by omega), afterLinked (by omega)⟩⟩

/-- Balanced tokens do not end with a parenthesis that is opened. -/
theorem Token.Balanced.isOpenParen_getLast? (balanced : Balanced tokens) :
    tokens.getLast?.any isOpenParen = false := by
  cases last : tokens.getLast? with
  | none => rfl
  | some token =>
    obtain ⟨init, rfl⟩ := List.getLast?_eq_some_iff.mp last
    have before := balanced.neverOvercloses init (List.prefix_append ..)
    have closed := balanced.closed
    rw [List.countP_append, List.countP_append] at closed
    cases token with
    | openParen symbol =>
      have counts : [openParen symbol].countP isOpenParen = 1 ∧
          [openParen symbol].countP isCloseParen = 0 := ⟨rfl, rfl⟩
      omega
    | _ => rfl

/-- Balanced tokens do not begin with a parenthesis that is closed. -/
theorem Token.Balanced.expects_head? (balanced : Balanced tokens) (nonempty : tokens ≠ []) :
    Place.operand.expects tokens.head? = true := by
  cases tokens with
  | nil => contradiction
  | cons token rest =>
    have first := balanced.neverOvercloses [token] (by simp)
    cases token with
    | closeParen symbol => cases first
    | _ => rfl

end Placed

/-- A sequence that evaluates is one of the grammar exactly if its tokens are placed. -/
theorem derives_iff_placed_of_evaluates {mode : AngleMode} {tokens : List Token} {x : Float}
    (success : evaluateTokens mode tokens = .ok x) :
    Derives .expression tokens ↔ placedFrom .operand tokens = true := by
  constructor
  · intro derives
    exact placedFrom_of_linkedFrom derives.linked
  · intro placed
    have balanced := balanced_of_evaluateTokens success
    have operands := operands_of_evaluateTokens success
    have nonempty : tokens ≠ [] := by
      rintro rfl
      cases success
    -- An operand that follows another one directly would have left one value too many.
    have counts := counts_of_placedFrom (isKnown_of_evaluateTokens success) placed
      (balanced.expects_head? nonempty) balanced.isOpenParen_getLast?
    exact derives_iff.mpr ⟨counts.2 operands.symm, balanced⟩

/-- The factorial of `5!` is placed, that of `!5` is not. -/
theorem derives_iff_placed_of_factorial :
    evaluateTokens .radians [.number 5 false, .factorialSign] = .ok 120 ∧
      (Derives .expression [.number 5 false, .factorialSign] ↔
        placedFrom .operand [.number 5 false, .factorialSign] = true) ∧
      evaluateTokens .radians [.factorialSign, .number 5 false] = .ok 120 ∧
      (Derives .expression [.factorialSign, .number 5 false] ↔
        placedFrom .operand [.factorialSign, .number 5 false] = true) := by
  have behind : evaluateTokens .radians [.number 5 false, .factorialSign] = .ok 120 := by
    decide +kernel
  have inFront : evaluateTokens .radians [.factorialSign, .number 5 false] = .ok 120 := by
    decide +kernel
  exact ⟨behind, derives_iff_placed_of_evaluates behind, inFront,
    derives_iff_placed_of_evaluates inFront⟩

/-- Sequences outside the grammar evaluate, although they should be refused: an empty group and a function
that is not called, as texts and alone, a factorial in front of its operand, and an operator in front of
both. -/
theorem evaluates_outside_grammar :
    (evaluateTokens .radians (writtenTokens "5!()".toList) = .ok 120 ∧
      ¬ Derives .expression (writtenTokens "5!()".toList)) ∧
    (evaluateTokens .radians (writtenTokens "4!sqrt".toList) = .ok 2 ∧
      ¬ Derives .expression (writtenTokens "4!sqrt".toList)) ∧
    (evaluateTokens .radians [.opening, .closing, .number 5 false] = .ok 5 ∧
      ¬ Derives .expression [.opening, .closing, .number 5 false]) ∧
    (evaluateTokens .radians [.function "sqrt", .number 4 false] = .ok 2 ∧
      ¬ Derives .expression [.function "sqrt", .number 4 false]) ∧
    (evaluateTokens .radians [.factorialSign, .number 5 false] = .ok 120 ∧
      ¬ Derives .expression [.factorialSign, .number 5 false]) ∧
    (evaluateTokens .radians [.binary .plus, .number 2 false, .number 3 false] = .ok 5 ∧
      ¬ Derives .expression [.binary .plus, .number 2 false, .number 3 false]) := by
  decide +kernel

end Calculator
