import Calculator.Proofs.Buffer.Points
import Calculator.Proofs.Number.Packing
import Calculator.Proofs.Scan.Cut

/-! # The sign key on a number at the end of a text

The sign key looks at characters, where the scanner looks at tokens. They agree on an unsigned number at the
end of a text, which gets a sign and parentheses, unless a point and a digit in front of it make a longer
numeral. On a number with a sign they only agree behind an operator sign: elsewhere the key takes the minus
sign of the number for the operator, and a second sign is written behind it.
-/

namespace Calculator

open Operand

namespace Token

/-- The token of the number with the opposite sign. -/
def negated : Token → Token
  | number value percent => number (-value) percent
  | token => token

end Token

/-- The last token is negated, with or without parentheses around it, and every other one is kept. -/
def NegatesLast (before after : List Token) : Prop :=
  ∃ operand ∈ before.getLast?, after = before.dropLast ++ [operand.negated] ∨
    after = before.dropLast ++ Token.grouped [operand.negated]

instance (before after : List Token) : Decidable (NegatesLast before after) :=
  inferInstanceAs (Decidable (∃ operand ∈ before.getLast?, _))

/-- A text ends with an operator sign, and this is not read as the sign of a number that follows. -/
def EndsWithOperator (text : Text) : Prop :=
  endsWithSign text = true ∧
    (text.getLast? = some '-' → Scan.signAllowed (lastToken? text.dropLast) = false)

/-- A digit and a point at the end of a text make one numeral with digits behind it. -/
def JoinsPoint (text digits : Text) : Prop :=
  text.getLast? = some '.' ∧ text.dropLast.getLast?.any Char.isDigit = true ∧ '.' ∉ digits

section Number

variable {front digits : Text} {negative : Bool}

theorem Operand.negated_token (negative : Bool) (digits : Text) :
    (token negative digits).negated = token (!negative) digits := by
  cases negative with
  | false => rfl
  | true => exact congrArg (Token.number · false) (Binary64.neg_neg_eq_self _)

/-- Behind unchanged tokens the last number comes back with the other sign, in parentheses or not. -/
theorem negatesLast_concat_iff {tokens after : List Token} :
    NegatesLast (tokens ++ [token negative digits]) after ↔
      ∃ wrapped, after = tokens ++ Operand.tokens wrapped (!negative) digits := by
  rw [NegatesLast, List.getLast?_concat, List.dropLast_concat]
  constructor
  · rintro ⟨operand, same, bare | grouped⟩
    · cases same
      exact ⟨false, by rw [bare, negated_token]; rfl⟩
    · cases same
      exact ⟨true, by rw [grouped, negated_token]; rfl⟩
  · rintro ⟨_ | _, rfl⟩
    · exact ⟨_, rfl, .inl (by rw [negated_token]; rfl)⟩
    · exact ⟨_, rfl, .inr (by rw [negated_token]; rfl)⟩

private theorem longest_of_not_joinsPoint (noDigit : front.getLast?.any Char.isDigit = false)
    (apart : ¬ JoinsPoint front digits) {more : Text} (nonempty : more ≠ []) (inside : more <:+ front) :
    isUnsigned (more ++ digits) = false := by
  refine Bool.eq_false_iff.mpr fun longer => apart ?_
  obtain ⟨inner, c, rfl⟩ := (List.eq_nil_or_concat more).resolve_left nonempty
  rw [List.concat_eq_append] at inside longer
  obtain ⟨before, rfl⟩ := inside
  rw [← List.append_assoc, List.getLast?_concat] at noDigit
  have other : c.isDigit = false := noDigit
  have character := isNumeralCharacter_of_isUnsigned longer c (by simp)
  obtain rfl : c = '.' := by simpa [isNumeralCharacter, other] using character
  rw [List.append_assoc] at longer
  have digit := Buffer.pointsFollowDigits_of_isUnsigned longer inner digits rfl
  have few := Buffer.count_point_of_isUnsigned longer
  refine ⟨by simp, ?_, fun member => ?_⟩
  · obtain ⟨d, last, isDigit⟩ := (Option.any_eq_true ..).mp digit
    rw [← List.append_assoc, List.dropLast_concat, List.getLast?_append, last]
    exact isDigit
  · have positive := List.count_pos_iff.mpr member
    simp only [List.count_append, List.singleton_append, List.count_cons_self] at few
    omega

private theorem map_token_scan_concat_minus (front : Text) :
    (scan (front ++ ['-'])).map Span.token = (scan front).map Span.token ++ [.binary .minus] := by
  rw [scan_concat_minus (by simp [startsWithDigit]), Scan.spansFrom, List.map_append]
  rfl

section Unsigned

variable (unsigned : isUnsigned digits = true)
include unsigned

private theorem negated?_unsigned (noMinus : (front ++ digits).head? ≠ some '-')
    (noBreak : '\n' ∉ front ++ digits) (noDigit : front.getLast?.any Char.isDigit = false)
    (noSign : ∀ before, front = before ++ ['-'] → endsWithSign before = false)
    (apart : ¬ JoinsPoint front digits) :
    Buffer.negated? (front ++ digits) = some (front ++ written true true digits) := by
  have noBreakFront : '\n' ∉ front := fun member => noBreak (List.mem_append_left _ member)
  have found : split? (front ++ digits) = some (front, written false false digits) :=
    split?_append_longest unsigned noBreakFront
      (fun _ => longest_of_not_joinsPoint noDigit apart) noSign
  exact Buffer.negated?_eq_some noMinus noBreak unsigned found

private theorem negated?_signed (noMinus : (front ++ '-' :: digits).head? ≠ some '-')
    (noBreak : '\n' ∉ front ++ '-' :: digits) :
    Buffer.negated? (front ++ '-' :: digits) = some (if endsWithSign front then front ++ digits
      else front ++ ['-'] ++ written true true digits) := by
  have noBreakFront : '\n' ∉ front := fun member => noBreak (List.mem_append_left _ member)
  have found := split?_append_minus unsigned noBreakFront
  by_cases sign : endsWithSign front = true
  · rw [if_pos sign] at found ⊢
    replace found : _ = some (front, written false true digits) := found
    exact Buffer.negated?_eq_some noMinus noBreak unsigned found
  · rw [if_neg sign] at found ⊢
    replace found : _ = some (front ++ ['-'], written false false digits) := found
    exact Buffer.negated?_eq_some noMinus noBreak unsigned found

private theorem map_token_scan_wrapped (front : Text) (negative : Bool) :
    (scan (front ++ written true negative digits)).map Span.token =
      (scan front).map Span.token ++ tokens true negative digits := by
  simpa [closedTokens] using map_token_scan_append_wrapped unsigned front negative 0

private theorem map_token_scan_minus (allowed : Scan.signAllowed (lastToken? front) = true) :
    (scan (front ++ '-' :: digits)).map Span.token =
      (scan front).map Span.token ++ [token true digits] := by
  simpa [closedTokens, tokens, written, signed] using
    map_token_scan_append_negative unsigned front 0 allowed

private theorem noSign_of_scan {before : Text}
    (unsignedToken : (scan (before ++ '-' :: digits)).map Span.token =
      (scan (before ++ ['-'])).map Span.token ++ [token false digits]) :
    endsWithSign before = false := by
  refine Bool.eq_false_iff.mpr fun sign => ?_
  obtain ⟨operator, ends⟩ := lastToken?_of_endsWithSign sign
  have allowed : Scan.signAllowed (lastToken? before) = true := by rw [ends]; rfl
  rw [map_token_scan_minus unsigned allowed, map_token_scan_concat_minus, List.append_assoc]
    at unsignedToken
  have lengths := congrArg List.length (List.append_cancel_left unsignedToken)
  simp at lengths

private theorem negatesLast_signed_iff :
    NegatesLast ((scan front).map Span.token ++ [token true digits])
        ((scan (if endsWithSign front then front ++ digits
          else front ++ ['-'] ++ written true true digits)).map Span.token) ↔
      EndsWithOperator front := by
  rw [negatesLast_concat_iff]
  by_cases sign : endsWithSign front = true
  · rw [if_pos sign]
    by_cases taken : front.getLast? = some '-' ∧ Scan.signAllowed (lastToken? front.dropLast) = true
    · -- The operator becomes the sign of the number.
      obtain ⟨minus, allowed⟩ := taken
      obtain ⟨before, rfl⟩ := List.getLast?_eq_some_iff.mp minus
      rw [List.dropLast_concat] at allowed
      rw [List.append_assoc, List.singleton_append, map_token_scan_minus unsigned allowed,
        map_token_scan_concat_minus]
      refine iff_of_false ?_ ?_
      · rintro ⟨wrapped, same⟩
        rw [List.append_assoc] at same
        have lengths := congrArg List.length (List.append_cancel_left same)
        cases wrapped <;> simp [tokens, Token.grouped] at lengths
      · rintro ⟨-, notAllowed⟩
        have noSign := notAllowed minus
        rw [List.dropLast_concat, allowed] at noSign
        cases noSign
    · have noNumber : (lastToken? front).any Token.isNumber = false := by
        obtain ⟨operator, ends⟩ := lastToken?_of_endsWithSign sign
        rw [ends]
        rfl
      have noSign : ∀ before, front = before ++ ['-'] →
          Scan.signAllowed (lastToken? before) = false := by
        rintro before rfl
        simpa using taken
      have bare := map_token_scan_append_unsigned unsigned front 0 noNumber noSign
      refine iff_of_true ⟨false, ?_⟩ ⟨sign, ?_⟩
      · simpa [closedTokens, written, signed] using bare
      · simpa using taken
  · -- Four tokens more than in front of the number.
    rw [if_neg sign, map_token_scan_wrapped unsigned, map_token_scan_concat_minus, List.append_assoc]
    refine iff_of_false ?_ fun operator => sign operator.1
    rintro ⟨wrapped, same⟩
    have lengths := congrArg List.length (List.append_cancel_left same)
    cases wrapped <;> simp [tokens, Token.grouped] at lengths

end Unsigned

end Number

/-- Where a number ends the text, the sign key negates it and keeps every other token, exactly if the number
has no sign or stands behind an operator. The digits must not go on behind a point that another number
left. -/
theorem negatesLast_toggleSign_iff {span : Span} (buffer : Buffer)
    (noMinus : buffer.text.head? ≠ some '-') (noBreak : '\n' ∉ buffer.text)
    (ends : EndsText buffer.text span)
    (apart : buffer.text[span.start]? ≠ some '-' →
      ¬ JoinsPoint (buffer.text.take span.start) (buffer.text.drop span.start)) :
    NegatesLast ((scan buffer.text).map Span.token) ((scan buffer.toggleSign.text).map Span.token) ↔
      (buffer.text[span.start]? = some '-' → EndsWithOperator (buffer.text.take span.start)) := by
  obtain ⟨front, negative, digits, unsigned, text, rfl, spans, place⟩ := ends.exists_signed
  have pressed (later : Text) : Buffer.negated? buffer.text = some later →
      buffer.toggleSign.text = later := Buffer.text_toggleSign
  rw [text] at noMinus noBreak apart spans pressed ⊢
  have tokens := congrArg (List.map Span.token) spans
  rw [List.map_append] at tokens
  have first : (front ++ signed negative digits)[front.length]? = (signed negative digits).head? := by
    rw [List.getElem?_append_right (Nat.le_refl _), Nat.sub_self, List.head?_eq_getElem?]
  simp only [first, List.take_left, List.drop_left] at apart ⊢
  rw [tokens]
  cases negative with
  | false =>
    have noSign : (signed false digits).head? ≠ some '-' := by
      obtain ⟨c, rest, rfl, digit⟩ := exists_cons_of_isUnsigned unsigned
      have other : c ≠ '-' := ne_of_isDigit digit rfl
      simpa [signed] using other
    have noOperator : ∀ before, front = before ++ ['-'] → endsWithSign before = false := by
      rintro before rfl
      refine noSign_of_scan unsigned ?_
      simpa [signed] using tokens
    have wrapped := negated?_unsigned unsigned noMinus noBreak place noOperator (apart noSign)
    rw [pressed _ wrapped, map_token_scan_wrapped unsigned]
    exact iff_of_true (negatesLast_concat_iff.mpr ⟨true, rfl⟩) fun sign => absurd sign noSign
  | true =>
    rw [pressed _ (negated?_signed unsigned noMinus noBreak)]
    exact (negatesLast_signed_iff unsigned).trans
      ⟨fun operator _ => operator, fun operator => operator rfl⟩

/-- The numbers at the end of `sin(30` and `3x-2`: the first one gets a sign, the second one loses it. -/
theorem negatesLast_toggleSign_iff_product :
    EndsText "sin(30".toList ⟨.number 30 false, 4, 2⟩ ∧
      EndsText "3x-2".toList ⟨.number (-2) false, 2, 2⟩ ∧
      NegatesLast ((scan "sin(30".toList).map Span.token)
        ((scan (Buffer.ofText "sin(30".toList).toggleSign.text).map Span.token) ∧
      NegatesLast ((scan "3x-2".toList).map Span.token)
        ((scan (Buffer.ofText "3x-2".toList).toggleSign.text).map Span.token) := by
  have call : EndsText "sin(30".toList ⟨.number 30 false, 4, 2⟩ :=
    ⟨by decide +kernel, rfl, rfl⟩
  have product : EndsText "3x-2".toList ⟨.number (-2) false, 2, 2⟩ :=
    ⟨by decide +kernel, rfl, rfl⟩
  refine ⟨call, product, ?_, ?_⟩
  · refine (negatesLast_toggleSign_iff (Buffer.ofText "sin(30".toList) (by decide) (by decide) call
      fun _ joined => ?_).mpr ?_
    · exact absurd joined.1 (by decide)
    · exact fun sign => absurd sign (by decide)
  · refine (negatesLast_toggleSign_iff (Buffer.ofText "3x-2".toList) (by decide) (by decide) product
      fun unsigned => absurd rfl unsigned).mpr fun _ => ⟨rfl, ?_⟩
    decide

/-- Behind a parenthesis the sign of a number is taken for an operator, and after that the text cannot be
evaluated any more. -/
theorem number_signed_twice :
    "(-5".toList.head? ≠ some '-' ∧ '\n' ∉ "(-5".toList ∧
      EndsText "(-5".toList ⟨.number (-5) false, 1, 2⟩ ∧
      evaluate .radians (balanceParentheses "(-5".toList) = .ok (-5) ∧
      (Buffer.ofText "(-5".toList).toggleSign.text = "(-(-5)".toList ∧
      ¬ NegatesLast ((scan "(-5".toList).map Span.token)
        ((scan (Buffer.ofText "(-5".toList).toggleSign.text).map Span.token) ∧
      evaluate .radians (balanceParentheses (Buffer.ofText "(-5".toList).toggleSign.text) ≠ .ok 5 := by
  refine ⟨by decide, by decide, ⟨by decide +kernel, rfl, rfl⟩, ?_⟩
  decide +kernel

end Calculator
