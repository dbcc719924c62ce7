import Calculator.Engine
import Calculator.Proofs.Evaluation.Append
import Calculator.Proofs.Evaluation.Expression
import Calculator.Proofs.Evaluation.Finiteness
import Calculator.Proofs.Percent
import Calculator.Proofs.Product
import Calculator.Proofs.Scan.Append
import Calculator.Proofs.Scan.RoundTrip

/-! # A minus sign behind a finished text

When `-` and a number are typed behind a text that evaluates, the last token of the text alone
decides what the minus sign is. Behind a number and behind `)` it is subtraction. Behind anything else
it is the sign of the number, and then it depends on that last token what becomes of the number: π is
multiplied by it, a percent sign between two literals is the remainder operator, and after a
factorial or any other percent sign the number is left over.
-/

namespace Calculator

open Lexeme

variable {mode : AngleMode} {text : Text}

/-- Lexemes that are separated from a text and from each other add their tokens to those of the
text. -/
theorem Lexeme.map_token_scan_append (text : Text) (lexemes : List Lexeme)
    (apart : Scan.breaks (spell lexemes) = true)
    (separated : SeparatedFrom (lastToken? text) lexemes) :
    (scan (text ++ spell lexemes)).map Span.token =
      (scan text).map Span.token ++ lexemes.map token := by
  rw [scan_append apart, (spansFrom_spell_iff _ _ _).mpr separated, List.map_append,
    map_token_spansFrom]

/-- The tokens that lexemes add behind a text, if no percent sign is among them. -/
theorem tokenize_append_spell (text : Text) (lexemes : List Lexeme)
    (apart : Scan.breaks (spell lexemes) = true)
    (separated : SeparatedFrom (lastToken? text) lexemes)
    (noPercent : .percentSign ∉ lexemes.map token)
    (settled : lastToken? text ≠ some .percentSign ∨
      (lexemes.map token).head?.any Token.isNumber = false) :
    tokenize (text ++ spell lexemes) = tokenize text ++ lexemes.map token := by
  rw [tokenize, map_token_scan_append text lexemes apart separated]
  exact Percent.fold_disambiguate_append noPercent settled

/-- Unless it is a percent sign, the last token of the scan is that of the sequence. -/
theorem getLast?_tokenize {last : Token} (ends : lastToken? text = some last)
    (other : last ≠ .percentSign) : (tokenize text).getLast? = some last :=
  Percent.getLast?_fold_disambiguate ends other

private theorem exists_error_of_leftover {extended : Text} {a x : Float}
    (success : evaluate mode text = .ok a)
    (added : tokenize extended = tokenize text ++ [.number x false])
    (noProduct : Product.between (tokenize text).getLast? (some (.number x false)) = []) :
    ∃ error, evaluate mode extended = .error (.reported error) := by
  -- The number is a value too many, as no product joins it to the text.
  have tokens : Product.insertMissing (tokenize extended) =
      Product.insertMissing (tokenize text) ++ [.number x false] := by
    rw [added, Product.insertMissing_append, List.head?_cons, noProduct, List.append_nil]
    rfl
  rw [evaluate, tokens]
  rcases (evaluateTokens_reports mode _).cases_on with failed | ⟨result, value, -⟩
  · exact failed
  · exact absurd value (evaluateTokens_append_number success false result)

section Sign

variable (numeral : Numeral) {a : Float}

/-- Where no sign is allowed, the minus sign is subtraction. -/
theorem evaluate_append_subtraction (success : evaluate mode text = .ok a)
    (finite : numeral.value.isFinite = true)
    (noSign : Scan.signAllowed (lastToken? text) = false) :
    evaluate mode (text ++ '-' :: numeral.spelling) =
      Arithmetic.binary .minus a numeral.value := by
  have typed : spell [binary .minus, number false numeral] = '-' :: numeral.spelling := by
    simp [spell, spelling, BinaryOperator.symbol]
  have separated : SeparatedFrom (lastToken? text) [binary .minus, number false numeral] :=
    ⟨fun _ => noSign, ⟨rfl, fun negative => Bool.noConfusion negative⟩, trivial⟩
  have tokens := tokenize_append_spell text _ (typed ▸ rfl) separated
    (by simp [token, Token.binary, Token.percentSign, BinaryOperator.symbol]) (.inr rfl)
  obtain ⟨last, ends, joins⟩ : ∃ last, lastToken? text = some last ∧
      Scan.signAllowed (some last) = false := by
    cases ends : lastToken? text with
    | none => simp [ends, Scan.signAllowed] at noSign
    | some last => exact ⟨last, rfl, ends ▸ noSign⟩
  have noProduct : Product.between (some last) (some (.binary .minus)) = [] := by
    cases last with
    | number | closeParen => rfl
    | _ => cases joins
  have other : last ≠ .percentSign := by
    rintro rfl
    cases joins
  rw [typed] at tokens
  rw [evaluate, tokens, Product.insertMissing_append, getLast?_tokenize ends other]
  simp only [List.map_cons, List.head?_cons, token, noProduct, List.append_nil]
  exact evaluateTokens_append_binary (by decide) success finite

private theorem tokenize_append_signed (sign : Scan.signAllowed (lastToken? text) = true)
    (other : lastToken? text ≠ some .percentSign) :
    tokenize (text ++ '-' :: numeral.spelling) =
      tokenize text ++ [.number (-numeral.value) false] := by
  have typed : spell [number true numeral] = '-' :: numeral.spelling := by simp [spell, spelling]
  have tokens := tokenize_append_spell text [number true numeral] (typed ▸ rfl)
    ⟨⟨rfl, fun _ => sign⟩, trivial⟩ (by simp [token, Token.percentSign]) (.inl other)
  rwa [typed] at tokens

/-- Behind π the signed number is a factor, as it is when the product is written. -/
theorem evaluate_append_pi (ends : lastToken? text = some .pi) :
    evaluate mode (text ++ '-' :: numeral.spelling) =
      evaluate mode (text ++ 'x' :: '-' :: numeral.spelling) := by
  have sign : Scan.signAllowed (lastToken? text) = true := by rw [ends]; rfl
  have other : lastToken? text ≠ some .percentSign := by rw [ends]; decide
  have typed : spell [binary .times, number true numeral] = 'x' :: '-' :: numeral.spelling := by
    simp [spell, spelling, BinaryOperator.symbol]
  have written := tokenize_append_spell text [binary .times, number true numeral] (typed ▸ rfl)
    ⟨trivial, ⟨rfl, fun _ => rfl⟩, trivial⟩
    (by simp [token, Token.binary, Token.percentSign, BinaryOperator.symbol]) (.inl other)
  rw [typed] at written
  rw [evaluate, evaluate, tokenize_append_signed numeral sign other, written,
    Product.insertMissing_append, Product.insertMissing_append,
    getLast?_tokenize ends (by decide)]
  simp only [List.append_assoc]
  rfl

/-- Behind a factorial the signed number is left over. -/
theorem evaluate_append_factorialSign (success : evaluate mode text = .ok a)
    (ends : lastToken? text = some .factorialSign) :
    ∃ error, evaluate mode (text ++ '-' :: numeral.spelling) = .error (.reported error) := by
  have sign : Scan.signAllowed (lastToken? text) = true := by rw [ends]; rfl
  have other : lastToken? text ≠ some .percentSign := by rw [ends]; decide
  refine exists_error_of_leftover success (tokenize_append_signed numeral sign other) ?_
  rw [getLast?_tokenize ends (by decide)]
  rfl

end Sign

section PercentSign

variable (front : Text) (numeral : Numeral) {a : Float}

private theorem map_token_scan_percentSign :
    (scan (front ++ ['%'])).map Span.token = (scan front).map Span.token ++ [.percentSign] :=
  map_token_scan_append front [percentSign] rfl ⟨trivial, trivial⟩

private theorem map_token_scan_percentSign_signed :
    (scan (front ++ '%' :: '-' :: numeral.spelling)).map Span.token =
      (scan front).map Span.token ++ [.percentSign, .number (-numeral.value) false] := by
  have typed : spell [percentSign, number true numeral] = '%' :: '-' :: numeral.spelling := by
    simp [spell, spelling]
  have tokens := map_token_scan_append front [percentSign, number true numeral] (typed ▸ rfl)
    ⟨trivial, ⟨rfl, fun _ => rfl⟩, trivial⟩
  rwa [typed] at tokens

/-- Between two literals the percent sign is the remainder operator. -/
theorem evaluate_append_modulo (literal : (lastToken? front).any Token.isNumber = true) :
    evaluate mode (front ++ '%' :: '-' :: numeral.spelling) =
      evaluate mode (front ++ 'm' :: 'o' :: 'd' :: '-' :: numeral.spelling) := by
  have typed : spell [binary .modulo, number true numeral] =
      'm' :: 'o' :: 'd' :: '-' :: numeral.spelling := by
    simp [spell, spelling, BinaryOperator.symbol]
  have written := map_token_scan_append front [binary .modulo, number true numeral] (typed ▸ rfl)
    ⟨trivial, ⟨rfl, fun _ => rfl⟩, trivial⟩
  rw [typed] at written
  have settled : Percent.disambiguate
      ((scan front).map Span.token ++ [.percentSign, .number (-numeral.value) false]) =
        Percent.disambiguate ((scan front).map Span.token ++
          [.modulo, .number (-numeral.value) false]) :=
    Percent.disambiguate_append_percentSign rfl literal
  rw [evaluate, evaluate, tokenize, tokenize, map_token_scan_percentSign_signed, written, settled]
  rfl

/-- Behind any other percent sign the signed number is left over. -/
theorem evaluate_append_percentSign (success : evaluate mode (front ++ ['%']) = .ok a)
    (noLiteral : (lastToken? front).any Token.isNumber = false) :
    ∃ error, evaluate mode (front ++ '%' :: '-' :: numeral.spelling) =
      .error (.reported error) := by
  have alone : tokenize (front ++ ['%']) =
      Percent.fold (Percent.disambiguate ((scan front).map Span.token)) ++ [.percentSign] := by
    rw [tokenize, map_token_scan_percentSign]
    exact Percent.fold_disambiguate_append_percentSign (by simp) noLiteral
  have signed : tokenize (front ++ '%' :: '-' :: numeral.spelling) =
      tokenize (front ++ ['%']) ++ [.number (-numeral.value) false] := by
    rw [alone, tokenize, map_token_scan_percentSign_signed,
      Percent.fold_disambiguate_append_percentSign (by simp [Token.percentSign]) noLiteral,
      List.append_assoc]
    rfl
  refine exists_error_of_leftover success signed ?_
  rw [alone, List.getLast?_concat]
  rfl

end PercentSign

/-- What `-` and a number behind a text that evaluates do: subtraction behind a number and behind
`)`, a factor behind π, and after a percent sign a remainder or, as after a factorial, an error. -/
theorem evaluate_append_minus (mode : AngleMode) (text : Text) (numeral : Numeral) (a : Float)
    (success : evaluate mode text = .ok a) (finite : numeral.value.isFinite = true) :
    ((lastToken? text).any Token.isNumber = true ∨ lastToken? text = some .closing →
      evaluate mode (text ++ '-' :: numeral.spelling) =
        Arithmetic.binary .minus a numeral.value) ∧
    (lastToken? text = some .pi →
      evaluate mode (text ++ '-' :: numeral.spelling) =
        evaluate mode (text ++ 'x' :: '-' :: numeral.spelling)) ∧
    (lastToken? text = some .factorialSign →
      ∃ error, evaluate mode (text ++ '-' :: numeral.spelling) = .error (.reported error)) ∧
    ∀ front, text = front ++ ['%'] →
      if (lastToken? front).any Token.isNumber then
        evaluate mode (text ++ '-' :: numeral.spelling) =
          evaluate mode (front ++ 'm' :: 'o' :: 'd' :: '-' :: numeral.spelling)
      else ∃ error, evaluate mode (text ++ '-' :: numeral.spelling) = .error (.reported error) := by
  refine ⟨?_, ?_, ?_, ?_⟩
  · intro operand
    have noSign : Scan.signAllowed (lastToken? text) = false := by
      rcases operand with number | closes
      · cases ends : lastToken? text with
        | none => simp [ends] at number
        | some last =>
          rw [ends] at number
          cases last <;> first | rfl | cases number
      · rw [closes]
        rfl
    exact evaluate_append_subtraction numeral success finite noSign
  · exact evaluate_append_pi numeral
  · exact evaluate_append_factorialSign numeral success
  · rintro front rfl
    rw [List.append_assoc]
    split
    · next literal => exact evaluate_append_modulo front numeral literal
    · next noLiteral =>
      exact evaluate_append_percentSign front numeral success (Bool.eq_false_iff.mpr noLiteral)

/-- The four cases at `2-3`, `π-3`, `5!-3` and `5%-3`. -/
theorem evaluate_append_minus_three :
    evaluate .radians "2-3".toList = Arithmetic.binary .minus 2 (Numeral.ofDigit '3' rfl).value ∧
    evaluate .radians "π-3".toList = evaluate .radians "πx-3".toList ∧
    (∃ error, evaluate .radians "5!-3".toList = .error (.reported error)) ∧
    evaluate .radians "5%-3".toList = evaluate .radians "5mod-3".toList := by
  have finite : (Numeral.ofDigit '3' rfl).value.isFinite = true := by decide +kernel
  refine ⟨?_, ?_, ?_, ?_⟩
  · exact (evaluate_append_minus .radians ['2'] (.ofDigit '3' rfl) 2 (by decide +kernel) finite).1
      (.inl (by decide +kernel))
  · exact (evaluate_append_minus .radians ['π'] (.ofDigit '3' rfl) Arithmetic.pi (by decide +kernel)
      finite).2.1 (by decide +kernel)
  · exact (evaluate_append_minus .radians ['5', '!'] (.ofDigit '3' rfl) 120 (by decide +kernel)
      finite).2.2.1 (by decide +kernel)
  · have remainder := (evaluate_append_minus .radians ['5', '%'] (.ofDigit '3' rfl) 0.05
      (by decide +kernel) finite).2.2.2 ['5'] rfl
    rwa [if_pos (by decide +kernel)] at remainder

/-- Behind π, behind a factorial and behind a percentage the minus sign does not subtract, although
each of the texts is an expression. -/
theorem not_subtraction_behind_operand :
    (tokenize "π".toList = Expression.pi.tokens ∧
      evaluate .radians "π".toList = .ok Arithmetic.pi ∧
      evaluate .radians "π-1".toList ≠ Arithmetic.binary .minus Arithmetic.pi 1) ∧
    (tokenize "5!".toList = (Expression.factorial (.tight nofun (.number 5 false))).tokens ∧
      evaluate .radians "5!".toList = .ok 120 ∧
      evaluate .radians "5!-3".toList ≠ Arithmetic.binary .minus 120 3) ∧
    (tokenize "50%".toList = (Expression.number 50 true).tokens ∧
      evaluate .radians "50%".toList = .ok 0.5 ∧
      evaluate .radians "50%-3".toList ≠ Arithmetic.binary .minus 0.5 3) := by
  decide +kernel

end Calculator
