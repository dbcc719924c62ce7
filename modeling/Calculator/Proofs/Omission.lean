import Calculator.Proofs.Evaluation.Expression
import Calculator.Proofs.Grammar
import Calculator.Proofs.Product

/-! # Products that the user left out

Any of the multiplication signs of an expression may be left out where its neighbours show that one is
missing. Inserting the missing products then restores the expression: every sign that was left out
comes back, and between neighbours that the grammar allows next to each other nothing is inserted. What
stands left of a sign that is put back is the token that stood there before, so the signs can be
restored one by one.
-/

namespace Calculator

/-- Whether the product of two neighbours may be left out: the right one starts an operand and the left
one ends it, but not two numbers or two constants. -/
def mayOmit : Token → Token → Bool
  | .number .., right => right.startsOperand && !right.isNumber
  | .constant _, right => right.startsOperand && !right.isConstant
  | .closeParen _, right => right.startsOperand
  | _, _ => false

/-- A sequence and what remains of it when some products are left out. -/
inductive Omits : List Token → List Token → Prop
  | nothing : Omits [] []
  | keep {full short : List Token} (token : Token) (rest : Omits full short) :
      Omits (token :: full) (token :: short)
  | leaveOut {left right : Token} {full short : List Token} (may : mayOmit left right = true)
      (rest : Omits (right :: full) short) : Omits (left :: .times :: right :: full) (left :: short)

variable {tokens full short : List Token} {place : Place} {left right : Token}

namespace Omits

/-- Nothing has to be left out. -/
theorem refl (tokens : List Token) : Omits tokens tokens := by
  induction tokens with
  | nil => exact .nothing
  | cons token rest ih => exact .keep token ih

/-- The first token is never left out. -/
theorem head?_eq (omits : Omits full short) : short.head? = full.head? := by
  cases omits <;> rfl

end Omits

namespace Product

theorem isMissing_of_mayOmit (may : mayOmit left right = true) : isMissing left right = true := by
  cases left <;> cases right <;>
    simp_all [mayOmit, isMissing, Token.startsOperand, Token.isNumber, Token.isConstant]

/-- Between neighbours that the grammar allows no product is missing. -/
theorem isMissing_of_admits (admitted : left.place.admits right = true) :
    isMissing left right = false := by
  cases left with
  | number | constant | closeParen =>
    have follows : right.isTrailing || right.isBinary || right.isCloseParen := admitted
    cases right <;> simp_all [isMissing, Token.isTrailing, Token.isBinary, Token.isCloseParen]
  | function name =>
    obtain ⟨symbol, rfl⟩ := right.isOpenParen_iff.mp admitted
    rfl
  | operator | openParen => rfl

/-- A product that is not missing is not inserted behind the first token. -/
theorem insertMissing_cons_of_head? {token : Token} (rest : List Token)
    (present : ∀ next ∈ rest.head?, isMissing token next = false) :
    insertMissing (token :: rest) = token :: insertMissing rest := by
  cases rest with
  | nil => rfl
  | cons next rest =>
    have settled : isMissing token next = false := present next rfl
    rw [insertMissing_cons, between, settled]
    rfl

/-- Whatever was left out of a sequence whose neighbours fit is put back. -/
theorem insertMissing_of_omits (linked : linkedFrom place full = true) (omits : Omits full short) :
    insertMissing short = full := by
  induction omits generalizing place with
  | nothing => rfl
  | @keep full short token rest ih =>
    obtain ⟨-, later⟩ := linkedFrom_cons.mp linked
    have present : ∀ next ∈ short.head?, isMissing token next = false := by
      intro next head
      rw [rest.head?_eq] at head
      cases full with
      | nil => cases head
      | cons next full =>
        obtain rfl := Option.some.inj head
        exact isMissing_of_admits (linkedFrom_cons.mp later).1
    rw [insertMissing_cons_of_head? short present, ih later]
  | @leaveOut left right full short may rest ih =>
    obtain ⟨-, sign⟩ := linkedFrom_cons.mp linked
    obtain ⟨-, later⟩ := linkedFrom_cons.mp sign
    have restored := ih later
    -- The right neighbour was not left out, so it is the one that insertion sees.
    have head := rest.head?_eq
    cases short with
    | nil => cases head
    | cons next short =>
      obtain rfl := Option.some.inj head
      rw [insertMissing_cons, between, isMissing_of_mayOmit may, restored]
      rfl

end Product

/-- The phrase that an expression of a level is. -/
def Level.phrase : Level → Phrase
  | .sum | .term | .power => .expression
  | .factor | .primary => .operand

theorem Derives.expression {level : Level} (derives : Derives level.phrase tokens) :
    Derives .expression tokens := by
  cases level with
  | sum | term | power => exact derives
  | factor | primary => exact .single derives

/-- Every tree writes a sequence of the grammar. -/
theorem Expression.derives {level : Level} (expression : Expression level) :
    Derives level.phrase expression.tokens := by
  induction expression with
  | number x marked => exact .number x marked
  | pi => exact .constant "π"
  | group inner ih => exact .group "(" ")" ih
  | call f argument ih => exact .call f.name "(" ")" ih
  | percent operand ih => exact .percent ih
  | factorial operand ih => exact .factorial ih
  | binary operator left right leftIh rightIh =>
    have joined := Derives.joined operator leftIh.expression rightIh.expression
    cases operator <;> exact joined
  | @tight level loose operand ih =>
    cases level with
    | sum | term => exact ih
    | power => exact .single ih
    | factor | primary => exact ih

/-- Products that were left out are put back, and no others are inserted: in every sequence of the
grammar, in every tree, and for the value or the error of evaluating either. -/
theorem omitted_products_restored :
    (∀ tokens short, Derives .expression tokens → Omits tokens short →
      Product.insertMissing short = tokens) ∧
    (∀ tokens, Derives .expression tokens → Product.insertMissing tokens = tokens) ∧
    (∀ {level : Level} (tree : Expression level) (short : List Token), Omits tree.tokens short →
      Product.insertMissing short = tree.tokens) ∧
    ∀ (mode : AngleMode) (tokens short : List Token), Derives .expression tokens →
      Omits tokens short →
        evaluateTokens mode (Product.insertMissing short) = evaluateTokens mode tokens := by
  have restored (tokens short : List Token) (derives : Derives .expression tokens)
      (omits : Omits tokens short) : Product.insertMissing short = tokens :=
    Product.insertMissing_of_omits derives.linked omits
  refine ⟨restored, ?_, ?_, ?_⟩
  · intro tokens derives
    exact restored tokens tokens derives (.refl tokens)
  · intro level tree short omits
    exact restored tree.tokens short tree.derives.expression omits
  · intro mode tokens short derives omits
    rw [restored tokens short derives omits]

/-- Both products of `2x(3xπ)` are left out in `2(3π)`. -/
theorem omitted_products_restored_in_group :
    Product.insertMissing [.number 2 false, .opening, .number 3 false, .pi, .closing] =
        [.number 2 false, .times, .opening, .number 3 false, .times, .pi, .closing] ∧
      Product.insertMissing [.number 3 false, .times, .pi] = [.number 3 false, .times, .pi] ∧
      evaluateTokens .radians
          (Product.insertMissing [.number 2 false, .opening, .number 3 false, .pi, .closing]) =
        evaluateTokens .radians
          [.number 2 false, .times, .opening, .number 3 false, .times, .pi, .closing] ∧
      Product.insertMissing [.number 2 false, .pi] = [.number 2 false, .times, .pi] := by
  obtain ⟨restored, identity, trees, evaluated⟩ := omitted_products_restored
  have derives : Derives .expression
      [.number 2 false, .times, .opening, .number 3 false, .times, .pi, .closing] := by
    decide +kernel
  have inner : Derives .expression [.number 3 false, .times, .pi] := by decide +kernel
  have omits : Omits [.number 2 false, .times, .opening, .number 3 false, .times, .pi, .closing]
      [.number 2 false, .opening, .number 3 false, .pi, .closing] :=
    .leaveOut rfl (.keep _ (.leaveOut rfl (.keep _ (.keep _ .nothing))))
  have tight : Level.factor ≠ .primary ∧ Level.power ≠ .primary ∧ Level.term ≠ .primary := by decide
  obtain ⟨tree, written⟩ :
      ∃ tree : Expression .term, tree.tokens = [.number 2 false, .times, .pi] :=
    ⟨.binary .times (.tight tight.2.2 (.tight tight.2.1 (.tight tight.1 (.number 2 false))))
      (.tight tight.2.1 (.tight tight.1 .pi)), rfl⟩
  have shortened : Omits tree.tokens [.number 2 false, .pi] := by
    rw [written]
    exact .leaveOut rfl (.keep _ .nothing)
  exact ⟨restored _ _ derives omits, identity _ inner, evaluated _ _ _ derives omits,
    (trees tree _ shortened).trans written⟩

end Calculator
