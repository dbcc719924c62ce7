import Calculator.Proofs.Buffer.Operand
import Calculator.Proofs.Scan.Group

/-! # Scanning a numeral behind a text

A digit can continue the number in front of it, and it can make a minus sign part of a number. Behind a
text that ends with neither, a numeral is scanned by itself, and it is read as the same token there as in
parentheses.
-/

namespace Calculator

namespace Scan

variable {previous : Option Token} {start : Nat} {text rest : Text}

/-- A point is skipped, wherever no literal takes it. -/
theorem lexeme?_point (previous : Option Token) (rest : Text) :
    lexeme? previous ('.' :: rest) = none := rfl

theorem spansFrom_point :
    spansFrom previous start ('.' :: rest) = spansFrom previous (start + 1) rest := by
  rw [spansFrom, lexeme?_point]

section Digit

variable (digit : startsWithDigit rest = true)
include digit

private theorem word?_append_digit : word? (text ++ rest) = word? text := by
  refine word?_append_of_noEnding fun word member last split some reached => ?_
  obtain ⟨c, last, rfl⟩ := List.exists_cons_of_ne_nil some
  obtain ⟨after, rfl⟩ := reached
  have isDigit : c.isDigit = true := digit
  have noDigit := words_noDigit word member c (by simp [split])
  exact absurd (noDigit.symm.trans isDigit) Bool.false_ne_true

/-- A step does not see digits behind the text, unless it reads a number that they continue or a sign
that they follow. -/
theorem lexeme?_append_digit (nonempty : text ≠ []) (noSign : text.getLast? ≠ some '-')
    (ends : ∀ first after x marked, text = first ++ after →
      lexeme? previous text = some (.number x marked, first.length) → after ≠ [] ∧ after ≠ ['.']) :
    lexeme? previous (text ++ rest) = lexeme? previous text := by
  obtain ⟨c, text, rfl⟩ := List.exists_cons_of_ne_nil nonempty
  by_cases minus : c = '-'
  · subst minus
    have digits : startsWithDigit (text ++ rest) = startsWithDigit text := by
      cases text with
      | nil => exact absurd rfl noSign
      | cons => rfl
    rw [List.cons_append, lexeme?_minus, lexeme?_minus, digits]
    by_cases sign : startsWithDigit text = true ∧ signAllowed previous = true
    · obtain ⟨after, split⟩ := Literal.spelling_atStart_prefix text
      have read := (lexeme?_minus previous text).trans (if_pos sign)
      have apart := ends ('-' :: (Literal.atStart text).spelling) after _ _
        (congrArg ('-' :: ·) split.symm) read
      rw [Literal.atStart_append_of_after rest split.symm apart.1 apart.2]
    · rw [if_neg sign, if_neg sign]
  · by_cases isDigit : c.isDigit = true
    · obtain ⟨after, split⟩ := Literal.spelling_atStart_prefix (c :: text)
      have starts : startsWithDigit (c :: text) = true := isDigit
      have startsAcross : startsWithDigit (c :: text ++ rest) = true := isDigit
      have apart := ends _ after _ _ split.symm (lexeme?_digit starts)
      rw [lexeme?_digit starts, lexeme?_digit startsAcross,
        Literal.atStart_append_of_after rest split.symm apart.1 apart.2]
    · have noWord : word? (c :: text ++ rest) = word? (c :: text) := word?_append_digit digit
      rw [List.cons_append] at noWord ⊢
      simp only [lexeme?, minus, false_and, if_false, isDigit, Bool.false_eq_true, noWord]

/-- The scan comes to a place in front of digits, unless the text in front of it ends with a number or a
minus sign. -/
theorem cut_of_digit (noSign : text.getLast? ≠ some '-')
    (noNumber : (spansFrom previous start text).getLast?.any (fun span => span.token.isNumber) = false) :
    Cut previous text rest := by
  fun_induction spansFrom previous start text with
  | case1 => exact .here
  | case2 previous start c text skipped ih =>
    have across : lexeme? previous (c :: text ++ rest) = none := by
      rw [lexeme?_append_digit digit (List.cons_ne_nil c text) noSign, skipped]
      intro first after x marked _ read
      cases skipped.symm.trans read
    have noSignLater : text.getLast? ≠ some '-' := by
      intro last
      refine noSign ?_
      rw [List.getLast?_cons, last]
      rfl
    exact .skip across (ih noSignLater noNumber)
  | case3 previous start c text token length read ih =>
    obtain ⟨first, split, rfl, nonempty⟩ := exists_append_drop_of_lexeme? read
    generalize text.drop (first.length - 1) = later at ih noNumber split ⊢
    have across : lexeme? previous (first ++ (later ++ rest)) = some (token, first.length) := by
      rw [← List.append_assoc, ← split,
        lexeme?_append_digit digit (List.cons_ne_nil c text) noSign, read]
      -- A number that ends the text, or has only a point behind it, would be the last token.
      intro front after x marked parts number
      obtain ⟨rfl, same⟩ := Prod.mk.inj (Option.some.inj (read.symm.trans number))
      obtain ⟨rfl, rfl⟩ := List.append_inj (split.symm.trans parts) same
      constructor
      · rintro rfl
        rw [spansFrom] at noNumber
        cases noNumber
      · rintro rfl
        rw [spansFrom_point, spansFrom] at noNumber
        cases noNumber
    have noSignLater : later.getLast? ≠ some '-' := by
      intro last
      refine noSign ?_
      rw [split, List.getLast?_append, last]
      rfl
    have noNumberLater : (spansFrom (some token) (start + first.length) later).getLast?.any
        (fun span => span.token.isNumber) = false := by
      cases spans : spansFrom (some token) (start + first.length) later with
      | nil => rfl
      | cons span more =>
        rw [spans, List.getLast?_cons_cons] at noNumber
        exact noNumber
    rw [split]
    exact .read nonempty across (ih noSignLater noNumberLater)

end Digit

theorem map_token_spansFrom_closings (previous : Option Token) (start count : Nat) :
    (spansFrom previous start (List.replicate count ')')).map Span.token =
      List.replicate count .closing := by
  induction count generalizing previous start with
  | zero => rw [List.replicate_zero, spansFrom]; rfl
  | succ count ih =>
    have read : lexeme? previous ([')'] ++ List.replicate count ')') =
        some (.closing, [')'].length) := rfl
    rw [List.replicate_succ, ← List.singleton_append, spansFrom_of_lexeme? (List.cons_ne_nil _ _) read,
      List.map_cons, ih, List.replicate_succ]

end Scan

section Sign

variable {front rest : Text}

/-- A minus sign in front of no digit, or where no sign is allowed, is an operator by itself. -/
theorem scan_concat_minus
    (noSign : ¬ (startsWithDigit rest = true ∧ Scan.signAllowed (lastToken? front) = true)) :
    scan (front ++ '-' :: rest) =
      scan front ++ ⟨.binary .minus, front.length, 1⟩ ::
        Scan.spansFrom (some (.binary .minus)) (front.length + 1) rest := by
  have read : Scan.lexeme? (lastToken? front) (['-'] ++ rest) = some (.binary .minus, ['-'].length) :=
    (Scan.lexeme?_minus _ _).trans (if_neg noSign)
  rw [scan_append rfl, ← List.singleton_append, Scan.spansFrom_of_lexeme? (List.cons_ne_nil _ _) read]
  rfl

private theorem lastToken?_concat_minus : lastToken? (front ++ ['-']) = some (.binary .minus) := by
  rw [lastToken?, scan_concat_minus (by simp [startsWithDigit]), Scan.spansFrom]
  simp

/-- A text that ends with an operator sign ends with an operator. -/
theorem lastToken?_of_endsWithSign {text : Text} (sign : Operand.endsWithSign text = true) :
    ∃ operator : BinaryOperator, lastToken? text = some (.binary operator) := by
  rw [Operand.endsWithSign] at sign
  rcases List.eq_nil_or_concat text with rfl | ⟨front, c, rfl⟩
  · cases sign
  rw [List.concat_eq_append] at sign ⊢
  replace sign : Operand.isOperatorSign c = true := by simpa using sign
  have single (operator : BinaryOperator) (breaks : Scan.breaks [c] = true)
      (read : ∀ previous, Scan.lexeme? previous ([c] ++ []) = some (.binary operator, [c].length)) :
      lastToken? (front ++ [c]) = some (.binary operator) := by
    rw [lastToken?, scan_append breaks, ← List.append_nil [c],
      Scan.spansFrom_of_lexeme? (List.cons_ne_nil _ _) (read _), Scan.spansFrom]
    simp
  rcases Operand.isOperatorSign_cases sign with rfl | rfl | rfl | rfl
  · exact ⟨.plus, single .plus rfl fun _ => rfl⟩
  · exact ⟨.minus, lastToken?_concat_minus⟩
  · exact ⟨.times, single .times rfl fun _ => rfl⟩
  · exact ⟨.divide, single .divide rfl fun _ => rfl⟩

/-- Digits are scanned by themselves behind a text that ends neither with a number nor with a minus sign
that could be the sign of one. -/
theorem scan_append_digit (digit : startsWithDigit rest = true) {text : Text}
    (noNumber : (lastToken? text).any Token.isNumber = false)
    (noSign : ∀ front, text = front ++ ['-'] → Scan.signAllowed (lastToken? front) = false) :
    scan (text ++ rest) = scan text ++ Scan.spansFrom (lastToken? text) text.length rest := by
  by_cases minus : text.getLast? = some '-'
  · obtain ⟨front, rfl⟩ := List.getLast?_eq_some_iff.mp minus
    have notAllowed := noSign front rfl
    rw [lastToken?_concat_minus, List.append_assoc, List.singleton_append,
      scan_concat_minus (by simp [notAllowed]), scan_concat_minus (by simp [startsWithDigit]),
      Scan.spansFrom]
    simp
  · have noNumberSpan : (Scan.spansFrom none 0 text).getLast?.any (fun span => span.token.isNumber) =
        false := by
      rw [lastToken?, List.getLast?_map, Option.any_map] at noNumber
      exact noNumber
    exact (Scan.cut_of_digit digit minus noNumberSpan).scan_append

end Sign

namespace Operand

variable {digits : Text} {negative : Bool}

/-- The token of a numeral that may have a sign. -/
def token (negative : Bool) (digits : Text) : Token :=
  .number (if negative then -(Literal.atStart digits).value else (Literal.atStart digits).value) false

/-- The tokens of an operand. -/
def tokens (wrapped negative : Bool) (digits : Text) : List Token :=
  if wrapped then Token.grouped [token negative digits] else [token negative digits]

/-- The tokens of an operand at the end of a text whose open parentheses are closed. -/
def closedTokens (wrapped negative : Bool) (digits : Text) (count : Nat) : List Token :=
  tokens wrapped negative digits ++ List.replicate count .closing

section Token

variable (unsigned : isUnsigned digits = true)
include unsigned

/-- The whole numeral is one literal, up to a point at its end. -/
theorem exists_after_atStart :
    ∃ after, digits = (Literal.atStart digits).spelling ++ after ∧ (after = [] ∨ after = ['.']) := by
  obtain ⟨numeral, rfl | ⟨integral, rfl⟩⟩ := isUnsigned_iff.mp unsigned
  · exact ⟨[], by rw [numeral.atStart_spelling, List.append_nil], .inl rfl⟩
  · have point : ¬ '.'.isDigit = true := by decide
    have read : Literal.atStart (numeral.spelling ++ ['.']) = ⟨numeral.whole, []⟩ := by
      rw [Literal.spelling, if_pos integral, List.append_nil, Literal.atStart,
        List.takeWhile_append_of_pos numeral.whole_digits,
        List.dropWhile_append_of_pos numeral.whole_digits]
      simp [point]
    refine ⟨['.'], ?_, .inr rfl⟩
    rw [read, Literal.spelling, Literal.spelling, if_pos integral, if_pos rfl]

private theorem exists_lexeme?_signed {previous : Option Token}
    (allowed : negative = true → Scan.signAllowed previous = true) (count : Nat) :
    ∃ first after, signed negative digits = first ++ after ∧ first ≠ [] ∧
      (after = [] ∨ after = ['.']) ∧
        Scan.lexeme? previous (first ++ (after ++ List.replicate count ')')) =
          some (token negative digits, first.length) := by
  obtain ⟨after, split, tail⟩ := exists_after_atStart unsigned
  have starts : startsWithDigit (digits ++ List.replicate count ')') = true := by
    obtain ⟨c, more, rfl, digit⟩ := exists_cons_of_isUnsigned unsigned
    exact digit
  have read : Literal.atStart (digits ++ List.replicate count ')') = Literal.atStart digits := by
    cases count with
    | zero => rw [List.replicate_zero, List.append_nil]
    | succ count => exact Literal.atStart_append digits rfl (by simp [List.replicate_succ])
  have whole : digits ++ List.replicate count ')' =
      (Literal.atStart digits).spelling ++ (after ++ List.replicate count ')') := by
    rw [← List.append_assoc, ← split]
  cases negative with
  | false =>
    have lexeme : Scan.lexeme? previous
        ((Literal.atStart digits).spelling ++ (after ++ List.replicate count ')')) =
          some (token false digits, (Literal.atStart digits).spelling.length) := by
      rw [← whole, Scan.lexeme?_digit starts, read]
      rfl
    refine ⟨(Literal.atStart digits).spelling, after, split, ?_, tail, lexeme⟩
    intro empty
    rw [empty] at lexeme
    obtain ⟨first, rest, -, length, some⟩ := Scan.exists_append_of_lexeme? lexeme
    exact some (List.eq_nil_of_length_eq_zero length.symm)
  | true =>
    refine ⟨'-' :: (Literal.atStart digits).spelling, after, congrArg ('-' :: ·) split,
      List.cons_ne_nil _ _, tail, ?_⟩
    rw [List.cons_append, ← whole, Scan.lexeme?_minus, if_pos ⟨starts, allowed rfl⟩, read]
    rfl

/-- A numeral is scanned as its token, and the scan goes on with the closing parentheses behind it. -/
theorem exists_spansFrom_signed {previous : Option Token}
    (allowed : negative = true → Scan.signAllowed previous = true) (start count : Nat) :
    ∃ length place, Scan.spansFrom previous start (signed negative digits ++ List.replicate count ')') =
      ⟨token negative digits, start, length⟩ ::
        Scan.spansFrom (some (token negative digits)) place (List.replicate count ')') := by
  obtain ⟨first, after, split, nonempty, tail, lexeme⟩ :=
    exists_lexeme?_signed unsigned allowed count
  rw [split, List.append_assoc, Scan.spansFrom_of_lexeme? nonempty lexeme]
  rcases tail with rfl | rfl
  · exact ⟨_, _, rfl⟩
  · rw [List.singleton_append, Scan.spansFrom_point]
    exact ⟨_, _, rfl⟩

/-- A numeral alone is one span. -/
theorem exists_spansFrom_signed_alone {previous : Option Token}
    (allowed : negative = true → Scan.signAllowed previous = true) (start : Nat) :
    ∃ length, Scan.spansFrom previous start (signed negative digits) =
      [⟨token negative digits, start, length⟩] := by
  obtain ⟨length, place, spans⟩ := exists_spansFrom_signed unsigned allowed start 0
  rw [List.replicate_zero, List.append_nil, Scan.spansFrom] at spans
  exact ⟨length, spans⟩

/-- Where its sign is allowed, a numeral in front of closing parentheses is read as one number. -/
theorem map_token_spansFrom_signed {previous : Option Token}
    (allowed : negative = true → Scan.signAllowed previous = true) (start count : Nat) :
    (Scan.spansFrom previous start (signed negative digits ++ List.replicate count ')')).map
        Span.token = token negative digits :: List.replicate count .closing := by
  obtain ⟨length, place, spans⟩ := exists_spansFrom_signed unsigned allowed start count
  rw [spans, List.map_cons, Scan.map_token_spansFrom_closings]

/-- An operand in parentheses is scanned by itself behind any text. -/
theorem map_token_scan_append_wrapped (before : Text) (negative : Bool) (count : Nat) :
    (scan (before ++ written true negative digits ++ List.replicate count ')')).map Span.token =
      (scan before).map Span.token ++ closedTokens true negative digits count := by
  have apart : Scan.breaks (written true negative digits ++ List.replicate count ')') = true := rfl
  have allowed : negative = true → Scan.signAllowed none = true := fun _ => rfl
  have inside := map_token_spansFrom_signed unsigned allowed 0 0
  rw [List.replicate_zero, List.append_nil] at inside
  have noFront : ∀ lexeme ∈ ([] : List Lexeme), lexeme.isNumber = false := by simp
  have tokens := Lexeme.map_token_spansFrom_parenthesized (lastToken? before) before.length noFront
    (signed negative digits) (List.replicate count ')')
  rw [Scan.map_token_spansFrom_closings, scan, inside] at tokens
  rw [List.append_assoc, scan_append apart, List.map_append]
  exact congrArg _ tokens

/-- A negative numeral is scanned by itself where a sign is allowed. -/
theorem map_token_scan_append_negative (before : Text) (count : Nat)
    (allowed : Scan.signAllowed (lastToken? before) = true) :
    (scan (before ++ written false true digits ++ List.replicate count ')')).map Span.token =
      (scan before).map Span.token ++ closedTokens false true digits count := by
  have apart : Scan.breaks (written false true digits ++ List.replicate count ')') = true := rfl
  have sign : true = true → Scan.signAllowed (lastToken? before) = true := fun _ => allowed
  have tokens := map_token_spansFrom_signed unsigned sign before.length count
  rw [List.append_assoc, scan_append apart, List.map_append]
  exact congrArg _ tokens

/-- An unsigned numeral is scanned by itself where it continues no number and is not given a sign. -/
theorem map_token_scan_append_unsigned (before : Text) (count : Nat)
    (noNumber : (lastToken? before).any Token.isNumber = false)
    (noSign : ∀ front, before = front ++ ['-'] → Scan.signAllowed (lastToken? front) = false) :
    (scan (before ++ written false false digits ++ List.replicate count ')')).map Span.token =
      (scan before).map Span.token ++ closedTokens false false digits count := by
  have starts : startsWithDigit (written false false digits ++ List.replicate count ')') = true := by
    obtain ⟨c, rest, rfl, digit⟩ := exists_cons_of_isUnsigned unsigned
    exact digit
  have unneeded : false = true → Scan.signAllowed (lastToken? before) = true := nofun
  have tokens := map_token_spansFrom_signed unsigned unneeded before.length count
  rw [List.append_assoc, scan_append_digit starts noNumber noSign, List.map_append]
  exact congrArg _ tokens

end Token

end Operand

end Calculator
