import Calculator.Proofs.Token

/-! # The grammar of expressions

`Derives` lists the productions: operands, signs behind them, and binary operators between them. The
grammar is local but for its parentheses: whether a token may stand where it does depends on the
token before it, and a sequence is derivable exactly if this holds throughout and its parentheses are
balanced. So derivability can be decided, and a later argument may look at neighbours only.
-/

namespace Calculator

namespace Token

/-- Whether the token is a sign behind an operand: a factorial or a percent sign. -/
def isTrailing : Token → Bool
  | operator symbol => symbol == "!" || symbol == "%"
  | _ => false

/-- Whether an operand can start with the token. -/
def startsOperand : Token → Bool
  | number .. | constant _ | function _ | openParen _ => true
  | _ => false

theorem isTrailing_iff (token : Token) :
    token.isTrailing = true ↔ token = factorialSign ∨ token = percentSign := by
  cases token <;> simp [isTrailing, factorialSign, percentSign]

theorem isBinary_iff (token : Token) : token.isBinary = true ↔ ∃ operator, token = binary operator := by
  cases token <;> simp [isBinary, binary, Option.isSome_iff_exists,
    BinaryOperator.ofSymbol?_eq_some_iff]

theorem isCloseParen_iff (token : Token) :
    token.isCloseParen = true ↔ ∃ symbol, token = closeParen symbol := by
  cases token <;> simp [isCloseParen]

end Token

/-- The phrases of the grammar. -/
inductive Phrase where
  | operand
  | expression

/-- The token sequences that a phrase stands for. -/
inductive Derives : Phrase → List Token → Prop
  | number (x : Float) (marked : Bool) : Derives .operand [.number x marked]
  | constant (name : String) : Derives .operand [.constant name]
  | group {inner : List Token} (opened closed : String) (expression : Derives .expression inner) :
      Derives .operand (.openParen opened :: (inner ++ [.closeParen closed]))
  | call {inner : List Token} (name opened closed : String)
      (argument : Derives .expression inner) :
      Derives .operand (.function name :: .openParen opened :: (inner ++ [.closeParen closed]))
  | factorial {operand : List Token} (complete : Derives .operand operand) :
      Derives .operand (operand ++ [.factorialSign])
  | percent {operand : List Token} (complete : Derives .operand operand) :
      Derives .operand (operand ++ [.percentSign])
  | single {operand : List Token} (complete : Derives .operand operand) :
      Derives .expression operand
  | joined {left right : List Token} (operator : BinaryOperator)
      (leftExpression : Derives .expression left) (rightExpression : Derives .expression right) :
      Derives .expression (left ++ .binary operator :: right)

/-- What a sequence calls for next: an operand, the argument of a function, or whatever can follow a
complete operand. -/
inductive Place where
  | operand
  | argument
  | operator
deriving DecidableEq

/-- What a sequence calls for behind a token. -/
def Token.place : Token → Place
  | number .. | constant _ | closeParen _ => .operator
  | operator symbol => if (operator symbol).isTrailing then .operator else .operand
  | function _ => .argument
  | openParen _ => .operand

/-- Whether a token is what is called for. -/
def Place.admits : Place → Token → Bool
  | operand, token => token.startsOperand
  | argument, token => token.isOpenParen
  | operator, token => token.isTrailing || token.isBinary || token.isCloseParen

/-- Whether every token is what is called for at its place, and the last one completes an operand. -/
def linkedFrom (place : Place) : List Token → Bool
  | [] => place = .operator
  | token :: rest => place.admits token && linkedFrom token.place rest

theorem Token.place_binary (operator : BinaryOperator) : (binary operator).place = .operand := by
  cases operator <;> decide

theorem Place.admits_binary (operator : BinaryOperator) :
    Place.operator.admits (.binary operator) = true := by
  cases operator <;> decide

section Local

variable {phrase : Phrase} {tokens rest : List Token} {place : Place} {token : Token}

theorem linkedFrom_cons :
    linkedFrom place (token :: rest) = true ↔
      place.admits token = true ∧ linkedFrom token.place rest = true := by
  rw [linkedFrom, Bool.and_eq_true]

/-- Where an operand is called for, a phrase completes one. -/
theorem Derives.linkedFrom_append (derives : Derives phrase tokens)
    (linked : linkedFrom .operator rest = true) : linkedFrom .operand (tokens ++ rest) = true := by
  induction derives generalizing rest with
  | number | constant => exact linked
  | group opened closed expression ih | call name opened closed argument ih =>
    have inside := ih (show linkedFrom .operator (.closeParen closed :: rest) = true from linked)
    simpa [linkedFrom_cons, Place.admits, Token.startsOperand, Token.isOpenParen, Token.place]
      using inside
  | factorial complete ih =>
    rw [List.append_assoc]
    exact ih (linkedFrom_cons.mpr ⟨rfl, linked⟩)
  | percent complete ih =>
    rw [List.append_assoc]
    exact ih (linkedFrom_cons.mpr ⟨rfl, linked⟩)
  | single complete ih => exact ih linked
  | joined operator leftExpression rightExpression leftIh rightIh =>
    rw [List.append_assoc]
    refine leftIh (linkedFrom_cons.mpr ⟨Place.admits_binary operator, ?_⟩)
    rw [Token.place_binary]
    exact rightIh linked

/-- In a derivable sequence every token is what is called for. -/
theorem Derives.linked (derives : Derives phrase tokens) : linkedFrom .operand tokens = true := by
  have linked : linkedFrom .operand (tokens ++ []) = true := derives.linkedFrom_append rfl
  rwa [List.append_nil] at linked

end Local

namespace Token.Balanced

variable {first second inner : List Token} {token : Token}

theorem singleton (noOpening : token.isOpenParen = false) (noClosing : token.isCloseParen = false) :
    Balanced [token] := by
  refine ⟨fun front inside => ?_, by simp [noOpening, noClosing]⟩
  rcases List.prefix_cons_iff.mp inside with rfl | ⟨later, rfl, part⟩
  · exact Nat.le_refl 0
  · obtain rfl := List.prefix_nil.mp part
    simp [noClosing]

theorem append (balanced : Balanced first) (balancedSecond : Balanced second) :
    Balanced (first ++ second) := by
  have closed := balanced.closed
  constructor
  · intro front inside
    rcases List.prefix_or_prefix_of_prefix inside (List.prefix_append first second) with
      part | ⟨later, rfl⟩
    · exact balanced.neverOvercloses front part
    · have below := balancedSecond.neverOvercloses later ((List.prefix_append_right_inj first).mp inside)
      rw [List.countP_append, List.countP_append]
      omega
  · rw [List.countP_append, List.countP_append, closed, balancedSecond.closed]

/-- A pair of parentheses around a balanced sequence is balanced. -/
theorem group (balanced : Balanced inner) (opened closed : String) :
    Balanced (openParen opened :: (inner ++ [closeParen closed])) := by
  have equal := balanced.closed
  constructor
  · intro front inside
    rcases List.prefix_cons_iff.mp inside with rfl | ⟨later, rfl, after⟩
    · exact Nat.le_refl 0
    simp only [List.countP_cons, isOpenParen, isCloseParen, if_true, Bool.false_eq_true, if_false]
    rcases List.prefix_concat_iff.mp after with rfl | part
    · simp only [List.countP_append, List.countP_singleton, isOpenParen, isCloseParen, if_true,
        Bool.false_eq_true, if_false]
      omega
    · have below := balanced.neverOvercloses later part
      omega
  · simp only [List.countP_cons, List.countP_append, isOpenParen, isCloseParen, List.countP_nil,
      if_true, Bool.false_eq_true, if_false]
    omega

end Token.Balanced

/-- A derivable sequence closes every parenthesis that it opens, and no other. -/
theorem Derives.balanced {phrase : Phrase} {tokens : List Token} (derives : Derives phrase tokens) :
    Token.Balanced tokens := by
  induction derives with
  | number | constant => exact .singleton rfl rfl
  | group opened closed expression ih => exact ih.group opened closed
  | call name opened closed argument ih =>
    exact .append (.singleton rfl rfl) (ih.group opened closed)
  | factorial complete ih | percent complete ih => exact ih.append (.singleton rfl rfl)
  | single complete ih => exact ih
  | joined operator leftExpression rightExpression leftIh rightIh =>
    have sign : Token.Balanced [.binary operator] := .singleton rfl rfl
    exact leftIh.append (sign.append rightIh)

/-- What may stand between the start of a group and an operand in it. -/
inductive Pending : List Token → Prop
  | nothing : Pending []
  | operator {left : List Token} (operator : BinaryOperator) (expression : Derives .expression left) :
      Pending (left ++ [.binary operator])

/-- The tokens up to the innermost parenthesis that is open, with the number of those that are. -/
inductive Opened : Nat → List Token → Prop
  | nothing : Opened 0 []
  | group {depth : Nat} {context pending : List Token} (outer : Opened depth context)
      (waits : Pending pending) (symbol : String) :
      Opened (depth + 1) (context ++ pending ++ [.openParen symbol])
  | call {depth : Nat} {context pending : List Token} (outer : Opened depth context)
      (waits : Pending pending) (name symbol : String) :
      Opened (depth + 1) (context ++ pending ++ [.function name, .openParen symbol])

/-- What a derivation can begin with, by what is called for next and by the number of parentheses that
are open. -/
inductive Begins : Place → Nat → List Token → Prop
  | operand {depth : Nat} {context pending : List Token} (opened : Opened depth context)
      (waits : Pending pending) : Begins .operand depth (context ++ pending)
  | argument {depth : Nat} {context pending : List Token} (opened : Opened depth context)
      (waits : Pending pending) (name : String) :
      Begins .argument depth (context ++ pending ++ [.function name])
  | operator {depth : Nat} {context pending operand : List Token} (opened : Opened depth context)
      (waits : Pending pending) (complete : Derives .operand operand) :
      Begins .operator depth (context ++ (pending ++ operand))

section Reading

variable {depth later : Nat} {place : Place} {context pending operand front tokens : List Token}
  {token : Token}

/-- An operand completes what waits in front of it. -/
theorem Pending.append (waits : Pending pending) (complete : Derives .operand operand) :
    Derives .expression (pending ++ operand) := by
  cases waits with
  | nothing => exact .single complete
  | operator operator expression =>
    rw [List.append_assoc]
    exact .joined operator expression (.single complete)

/-- A closing parenthesis makes an operand of the innermost group. -/
theorem Opened.close (opened : Opened (depth + 1) context) (complete : Derives .expression tokens)
    (symbol : String) : Begins .operator depth (context ++ tokens ++ [.closeParen symbol]) := by
  cases opened with
  | @group _ context pending outer waits opening =>
    have closed := Begins.operator outer waits (.group opening symbol complete)
    simpa using closed
  | @call _ context pending outer waits name opening =>
    have closed := Begins.operator outer waits (.call name opening symbol complete)
    simpa using closed

/-- A token that is called for leads from one beginning to the next. -/
theorem Begins.step (begins : Begins place depth front) (admitted : place.admits token = true)
    (counted : depth + [token].countP Token.isOpenParen = later + [token].countP Token.isCloseParen) :
    Begins token.place later (front ++ [token]) := by
  cases begins with
  | @operand _ context pending opened waits =>
    cases token with
    | number x marked =>
      obtain rfl : depth = later := counted
      rw [List.append_assoc]
      exact .operator opened waits (.number x marked)
    | constant name =>
      obtain rfl : depth = later := counted
      rw [List.append_assoc]
      exact .operator opened waits (.constant name)
    | function name =>
      obtain rfl : depth = later := counted
      exact .argument opened waits name
    | openParen symbol =>
      obtain rfl : depth + 1 = later := counted
      have inside := Begins.operand (.group opened waits symbol) .nothing
      rwa [List.append_nil] at inside
    | operator symbol | closeParen symbol => cases admitted
  | @argument _ context pending opened waits name =>
    obtain ⟨symbol, rfl⟩ := token.isOpenParen_iff.mp admitted
    obtain rfl : depth + 1 = later := counted
    have inside := Begins.operand (.call opened waits name symbol) .nothing
    rw [List.append_nil] at inside
    rwa [List.append_assoc]
  | @operator _ context pending operand opened waits complete =>
    simp only [Place.admits, Bool.or_eq_true] at admitted
    rw [List.append_assoc, List.append_assoc]
    rcases admitted with (trailing | isBinary) | closes
    · rcases token.isTrailing_iff.mp trailing with rfl | rfl
      · obtain rfl : depth = later := counted
        exact .operator opened waits (.factorial complete)
      · obtain rfl : depth = later := counted
        exact .operator opened waits (.percent complete)
    · -- Everything since the innermost parenthesis becomes the left operand.
      obtain ⟨operator, rfl⟩ := token.isBinary_iff.mp isBinary
      obtain rfl : depth = later := counted
      rw [Token.place_binary, ← List.append_assoc pending]
      exact .operand opened (.operator operator (waits.append complete))
    · obtain ⟨symbol, rfl⟩ := token.isCloseParen_iff.mp closes
      obtain rfl : depth = later + 1 := counted
      have closed := opened.close (waits.append complete) symbol
      rwa [List.append_assoc, List.append_assoc] at closed

/-- What begins a derivation and is continued by what is called for is derivable, if it closes every
parenthesis that is open. -/
theorem Begins.derives (begins : Begins place depth front) (linked : linkedFrom place tokens = true)
    (covered : ∀ part, part <+: tokens →
      part.countP Token.isCloseParen ≤ depth + part.countP Token.isOpenParen)
    (closed : depth + tokens.countP Token.isOpenParen = tokens.countP Token.isCloseParen) :
    Derives .expression (front ++ tokens) := by
  induction tokens generalizing place depth front with
  | nil =>
    obtain rfl : place = .operator := by simpa [linkedFrom] using linked
    obtain rfl : depth = 0 := closed
    cases begins with
    | operator opened waits complete =>
      cases opened with
      | nothing =>
        rw [List.append_nil]
        exact waits.append complete
  | cons token rest ih =>
    obtain ⟨admitted, linked⟩ := linkedFrom_cons.mp linked
    -- What is covered keeps a closing parenthesis from coming where none is open.
    obtain ⟨later, counted⟩ : ∃ later, depth + [token].countP Token.isOpenParen =
        later + [token].countP Token.isCloseParen := by
      have first := covered [token] (by simp)
      exact ⟨depth + [token].countP Token.isOpenParen - [token].countP Token.isCloseParen, by omega⟩
    rw [← List.singleton_append, List.countP_append, List.countP_append] at closed
    rw [List.append_cons]
    refine ih (begins.step admitted counted) linked (fun part inside => ?_) (by omega)
    have whole := covered (token :: part) (List.cons_prefix_cons.mpr ⟨rfl, inside⟩)
    rw [← List.singleton_append, List.countP_append, List.countP_append] at whole
    omega

/-- The grammar: neighbours that fit, and balanced parentheses. -/
theorem derives_iff :
    Derives .expression tokens ↔ linkedFrom .operand tokens = true ∧ Token.Balanced tokens := by
  constructor
  · intro derives
    exact ⟨derives.linked, derives.balanced⟩
  · rintro ⟨linked, neverOvercloses, closed⟩
    have start : Begins .operand 0 [] := .operand .nothing .nothing
    refine start.derives linked (fun part inside => ?_) (by rw [Nat.zero_add, closed])
    rw [Nat.zero_add]
    exact neverOvercloses part inside

instance : DecidablePred (Derives .expression) := fun _ => decidable_of_iff _ derives_iff.symm

example : Derives .expression
    [.number 2 false, .binary .power, .function "sin", .opening, .pi, .closing, .factorialSign] := by
  decide

example : ¬ Derives .expression [.number 2 false, .opening, .pi, .closing] := by decide

end Reading

end Calculator
