import Calculator.Proofs.Evaluation.Group
import Calculator.Proofs.Percent
import Calculator.Proofs.Product
import Calculator.Proofs.Scan.Group

/-! # The meaning of a text in parentheses

A text that evaluates keeps its value in parentheses, whatever characters it is made of, and the
group is then an operand like any other: functions, postfix signs and operators apply to this value.
Every stage of the way treats a group by itself, so the four stages are put together one by one. The
only thing that a closing parenthesis can change is a text that ends with a function name.
-/

namespace Calculator

open Lexeme

/-- A text in parentheses contributes the group of its own tokens. -/
theorem tokenize_parenthesized {front : List Lexeme}
    (symbols : ∀ lexeme ∈ front, lexeme.isNumber = false) (text rest : Text) :
    tokenize (spell front ++ (parenthesized text ++ rest)) =
      Percent.fold (Percent.disambiguate (front.map token)) ++ Token.grouped (tokenize text) ++
        Percent.fold (Percent.disambiguate
          ((Scan.spansFrom (some .closing) 0 rest).map Span.token)) := by
  rw [tokenize, scan, map_token_spansFrom_parenthesized none 0 symbols, ← List.append_assoc,
    Percent.fold_disambiguate_append_grouped]
  rfl

/-- What stands between two operands: an operator, or nothing. -/
def signLexemes (sign : Option BinaryOperator) : List Lexeme := sign.toList.map binary

/-- The characters of an operator, or none. -/
def signSpelling (sign : Option BinaryOperator) : Text :=
  sign.elim [] fun operator => operator.symbol.toList

theorem spell_signLexemes (sign : Option BinaryOperator) :
    spell (signLexemes sign) = signSpelling sign := by
  cases sign <;> simp [signLexemes, signSpelling, spell, spelling]

section Parenthesized

variable {text : Text} (ends : (lastToken? text).any Token.isFunction = false)
include ends

/-- The products of a group are written by themselves as well, unless a function name ends it. -/
theorem writtenTokens_parenthesized {front : List Lexeme}
    (symbols : ∀ lexeme ∈ front, lexeme.isNumber = false) {rest : Text} {before after : List Token}
    (first : Percent.fold (Percent.disambiguate (front.map token)) = before)
    (second : Percent.fold (Percent.disambiguate
      ((Scan.spansFrom (some .closing) 0 rest).map Span.token)) = after) :
    writtenTokens (spell front ++ (parenthesized text ++ rest)) =
      Product.insertMissing before ++ Product.between before.getLast? (some .opening) ++
        Token.grouped (writtenTokens text) ++ Product.between (some .closing) after.head? ++
          Product.insertMissing after := by
  have uncalled : (tokenize text).getLast?.any Token.isFunction = false :=
    Percent.isFunction_getLast?_fold_disambiguate ends
  rw [writtenTokens, tokenize_parenthesized symbols, first, second,
    Product.insertMissing_append_grouped uncalled]
  rfl

/-- What stands behind a group is written by itself, with possibly a product in front of it. -/
theorem writtenTokens_parenthesized_append {rest : Text} {after : List Token}
    (second : Percent.fold (Percent.disambiguate
      ((Scan.spansFrom (some .closing) 0 rest).map Span.token)) = after) :
    writtenTokens (parenthesized text ++ rest) =
      Token.grouped (writtenTokens text) ++ (Product.between (some .closing) after.head? ++
        Product.insertMissing after) := by
  have first : Percent.fold (Percent.disambiguate (([] : List Lexeme).map token)) = [] := rfl
  have written := writtenTokens_parenthesized ends (by simp) first second
  rw [← List.append_assoc]
  exact written

/-- The tokens of a text in parentheses are those of the text in parentheses. -/
theorem writtenTokens_group :
    writtenTokens (parenthesized text) = Token.grouped (writtenTokens text) := by
  have second : Percent.fold (Percent.disambiguate
      ((Scan.spansFrom (some .closing) 0 []).map Span.token)) = [] := by rw [Scan.spansFrom]; rfl
  have written := writtenTokens_parenthesized_append ends second
  rw [List.append_nil] at written
  exact written.trans (List.append_nil _)

/-- A function name in front of the parentheses is one more token, and no product. -/
theorem writtenTokens_function (f : Function) :
    writtenTokens (f.name.toList ++ parenthesized text) =
      .function f.name :: Token.grouped (writtenTokens text) := by
  have symbols : ∀ lexeme ∈ [function f], lexeme.isNumber = false := by simp [isNumber]
  have first : Percent.fold (Percent.disambiguate ([function f].map token)) = [.function f.name] :=
    rfl
  have second : Percent.fold (Percent.disambiguate
      ((Scan.spansFrom (some .closing) 0 []).map Span.token)) = [] := by rw [Scan.spansFrom]; rfl
  have written := writtenTokens_parenthesized ends symbols first second
  simpa [spell, spelling, Product.insertMissing, Product.between, Product.isMissing, Token.opening]
    using written

theorem writtenTokens_percentSign :
    writtenTokens (parenthesized text ++ ['%']) =
      Token.grouped (writtenTokens text) ++ [.percentSign] := by
  have spans := (spansFrom_spell_iff (some .closing) 0 [percentSign]).mpr ⟨trivial, trivial⟩
  have second : Percent.fold (Percent.disambiguate
      ((Scan.spansFrom (some .closing) 0 ['%']).map Span.token)) = [.percentSign] := by
    rw [show ['%'] = spell [percentSign] from rfl, spans, map_token_spansFrom]
    rfl
  exact writtenTokens_parenthesized_append ends second

theorem writtenTokens_factorialSign :
    writtenTokens (parenthesized text ++ ['!']) =
      Token.grouped (writtenTokens text) ++ [.factorialSign] := by
  have spans := (spansFrom_spell_iff (some .closing) 0 [factorialSign]).mpr ⟨trivial, trivial⟩
  have second : Percent.fold (Percent.disambiguate
      ((Scan.spansFrom (some .closing) 0 ['!']).map Span.token)) = [.factorialSign] := by
    rw [show ['!'] = spell [factorialSign] from rfl, spans, map_token_spansFrom]
    rfl
  exact writtenTokens_parenthesized_append ends second

/-- Between two groups an operator stands as it is typed, and a product where none is typed. -/
theorem writtenTokens_between (sign : Option BinaryOperator) {other : Text}
    (otherEnds : (lastToken? other).any Token.isFunction = false) :
    writtenTokens (parenthesized text ++ (signSpelling sign ++ parenthesized other)) =
      Token.grouped (writtenTokens text) ++
        .binary (sign.getD .times) :: Token.grouped (writtenTokens other) := by
  have symbols : ∀ lexeme ∈ signLexemes sign, lexeme.isNumber = false := by
    cases sign <;> simp [signLexemes, isNumber]
  have settled : Percent.fold (Percent.disambiguate ((signLexemes sign).map token)) =
      (signLexemes sign).map token := by
    rcases sign with _ | operator
    · rfl
    · cases operator <;> rfl
  have uncalled : (tokenize other).getLast?.any Token.isFunction = false :=
    Percent.isFunction_getLast?_fold_disambiguate otherEnds
  have second : Percent.fold (Percent.disambiguate ((Scan.spansFrom (some .closing) 0
      (signSpelling sign ++ parenthesized other)).map Span.token)) =
        (signLexemes sign).map token ++ Token.grouped (tokenize other) ++ [] := by
    have spans := map_token_spansFrom_parenthesized (some .closing) 0 symbols other []
    rw [List.append_nil, spell_signLexemes] at spans
    rw [spans, ← List.append_assoc, Percent.fold_disambiguate_append_grouped, settled, Scan.spansFrom]
    rfl
  rw [writtenTokens_parenthesized_append ends second, Product.insertMissing_append_grouped uncalled]
  rcases sign with _ | operator
  · simp [writtenTokens, signLexemes, Product.insertMissing, Product.between, Product.isMissing,
      Token.opening, Token.closing, Token.grouped, Token.times, Token.binary, BinaryOperator.symbol]
  · simp [writtenTokens, signLexemes, Product.insertMissing, Product.between, Product.isMissing,
      Token.opening, Token.closing, Token.grouped, Token.binary, token]

end Parenthesized

/-- What a text means in parentheses. Both texts are arbitrary, as long as they evaluate and do not end
with the name of a function. -/
theorem evaluate_parenthesized (mode : AngleMode) (first second : Text) (a b : Float)
    (firstEnds : (lastToken? first).any Token.isFunction = false)
    (secondEnds : (lastToken? second).any Token.isFunction = false)
    (left : evaluate mode first = .ok a) (right : evaluate mode second = .ok b) :
    evaluate mode (parenthesized first) = .ok a ∧
    (∀ f : Function, evaluate mode (f.name.toList ++ parenthesized first) =
      Arithmetic.call mode f a) ∧
    evaluate mode (parenthesized first ++ ['%']) = .ok (Arithmetic.hundredth a) ∧
    evaluate mode (parenthesized first ++ ['!']) = Arithmetic.factorial a ∧
    (∀ operator : BinaryOperator,
      evaluate mode (parenthesized first ++ (operator.symbol.toList ++ parenthesized second)) =
        Arithmetic.binary operator a b) ∧
    evaluate mode (parenthesized first ++ parenthesized second) = Arithmetic.binary .times a b := by
  have combined (sign : Option BinaryOperator) :
      evaluate mode (parenthesized first ++ (signSpelling sign ++ parenthesized second)) =
        Arithmetic.binary (sign.getD .times) a b := by
    rw [evaluate_eq, writtenTokens_between firstEnds sign secondEnds]
    exact evaluateTokens_grouped_binary _ left right
  refine ⟨?_, ?_, ?_, ?_, fun operator => combined (some operator), combined none⟩
  · rw [evaluate_eq, writtenTokens_group firstEnds]
    exact evaluateTokens_grouped left
  · intro f
    rw [evaluate_eq, writtenTokens_function firstEnds]
    exact evaluateTokens_function_grouped f left
  · rw [evaluate_eq, writtenTokens_percentSign firstEnds]
    exact evaluateTokens_grouped_percentSign left
  · rw [evaluate_eq, writtenTokens_factorialSign firstEnds]
    exact evaluateTokens_grouped_factorialSign left

/-- The products of `2(3+4)` and `7%4`, with characters in them that spell nothing. -/
theorem evaluate_parenthesized_product :
    evaluate .radians "2(3+?4)".toList = .ok 14 ∧ evaluate .radians "7%4.".toList = .ok 3 ∧
      evaluate .radians "(2(3+?4))%".toList = .ok (Arithmetic.hundredth 14) ∧
      evaluate .radians "(2(3+?4))mod(7%4.)".toList = Arithmetic.binary .modulo 14 3 ∧
      evaluate .radians "(2(3+?4))(7%4.)".toList = Arithmetic.binary .times 14 3 := by
  have left : evaluate .radians "2(3+?4)".toList = .ok 14 := by decide +kernel
  have right : evaluate .radians "7%4.".toList = .ok 3 := by decide +kernel
  have meaning := evaluate_parenthesized .radians "2(3+?4)".toList "7%4.".toList 14 3
    (by decide +kernel) (by decide +kernel) left right
  exact ⟨left, right, meaning.2.2.1, meaning.2.2.2.2.1 .modulo, meaning.2.2.2.2.2⟩

end Calculator
