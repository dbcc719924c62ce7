import Calculator.Buffer.Operand
import Calculator.Proofs.Number.Literal
import Mathlib.Data.List.Infix

/-! # Which operand the sign key takes

An operand at the end of a text is an unsigned numeral, possibly with a minus sign and possibly in
parentheses; `Operand.written` spells all four forms and negating exchanges them. The search for the
operand is described by what it finds: an operand directly behind an operator sign if there is one on
the last line, and otherwise one that cannot be made longer.
-/

namespace Calculator

namespace Operand

/-- Whether a character can stand in an unsigned numeral. -/
def isNumeralCharacter (c : Char) : Bool := c.isDigit || c == '.'

theorem ne_of_isDigit {c other : Char} (digit : c.isDigit = true) (noDigit : other.isDigit = false) :
    c ≠ other := by
  rintro rfl
  exact Bool.false_ne_true (noDigit.symm.trans digit)

private theorem exists_numeral_of_isUnsigned {text : Text} (unsigned : isUnsigned text = true) :
    ∃ numeral : Numeral,
      text = numeral.spelling ∨ numeral.fraction = [] ∧ text = numeral.spelling ++ ['.'] := by
  obtain ⟨starts, continues⟩ : text.head?.any Char.isDigit = true ∧ _ :=
    Bool.and_eq_true_iff.mp unsigned
  have parts : text.takeWhile Char.isDigit ++ text.dropWhile Char.isDigit = text :=
    List.takeWhile_append_dropWhile
  have digits : ∀ c ∈ text.takeWhile Char.isDigit, c.isDigit := List.all_eq_true.mp List.all_takeWhile
  have some : text.takeWhile Char.isDigit ≠ [] := by
    cases text with
    | nil => simp at starts
    | cons c rest =>
      have first : c.isDigit = true := starts
      simp [first]
  split at continues
  · next all =>
    rw [all, List.append_nil] at parts
    exact ⟨⟨⟨_, []⟩, some, digits, by simp⟩, .inl (by simpa [Literal.spelling] using parts.symm)⟩
  · next fraction point =>
    rw [point] at parts
    by_cases integral : fraction = []
    · refine ⟨⟨⟨_, []⟩, some, digits, by simp⟩, .inr ⟨rfl, ?_⟩⟩
      simpa [Literal.spelling, integral] using parts.symm
    · refine ⟨⟨⟨_, fraction⟩, some, digits, List.all_eq_true.mp continues⟩, .inl ?_⟩
      simpa [Literal.spelling, integral] using parts.symm
  · cases continues

private theorem isUnsigned_append (numeral : Numeral) {after : Text}
    (continues : after = [] ∨ ∃ fraction, after = '.' :: fraction ∧ fraction.all Char.isDigit = true) :
    isUnsigned (numeral.whole ++ after) = true := by
  obtain ⟨c, whole, first⟩ := List.exists_cons_of_ne_nil numeral.whole_ne_nil
  have starts : (numeral.whole ++ after).head?.any Char.isDigit = true := by
    rw [first]
    exact numeral.whole_digits c (by simp [first])
  rw [isUnsigned, starts, List.dropWhile_append_of_pos numeral.whole_digits]
  rcases continues with rfl | ⟨fraction, rfl, digits⟩
  · rfl
  · exact digits

/-- An unsigned numeral as the sign key reads it is one that can be typed, or a run of digits with a
point that no digit follows. -/
theorem isUnsigned_iff {text : Text} :
    isUnsigned text = true ↔ ∃ numeral : Numeral,
      text = numeral.spelling ∨ numeral.fraction = [] ∧ text = numeral.spelling ++ ['.'] := by
  refine ⟨exists_numeral_of_isUnsigned, ?_⟩
  rintro ⟨numeral, rfl | ⟨integral, rfl⟩⟩
  · rw [Literal.spelling]
    split
    · exact isUnsigned_append numeral (.inl rfl)
    · exact isUnsigned_append numeral (.inr ⟨_, rfl, List.all_eq_true.mpr numeral.fraction_digits⟩)
  · rw [Literal.spelling, if_pos integral, List.append_nil]
    exact isUnsigned_append numeral (.inr ⟨[], rfl, rfl⟩)

section Unsigned

variable {digits : Text} (unsigned : isUnsigned digits = true)
include unsigned

theorem startsWithDigit_of_isUnsigned : startsWithDigit digits = true :=
  (Bool.and_eq_true_iff.mp unsigned).1

theorem exists_cons_of_isUnsigned : ∃ c rest, digits = c :: rest ∧ c.isDigit = true := by
  have starts := startsWithDigit_of_isUnsigned unsigned
  cases digits with
  | nil => cases starts
  | cons c rest => exact ⟨c, rest, rfl, starts⟩

theorem isNumeralCharacter_of_isUnsigned : ∀ c ∈ digits, isNumeralCharacter c = true := by
  obtain ⟨numeral, spelled⟩ := isUnsigned_iff.mp unsigned
  have whole : ∀ c ∈ numeral.whole, isNumeralCharacter c = true := fun c member => by
    simp [isNumeralCharacter, numeral.whole_digits c member]
  have fraction : ∀ c ∈ numeral.fraction, isNumeralCharacter c = true := fun c member => by
    simp [isNumeralCharacter, numeral.fraction_digits c member]
  have point : isNumeralCharacter '.' = true := rfl
  rcases spelled with rfl | ⟨integral, rfl⟩
  · rw [Literal.spelling]
    split
    · simpa using whole
    · simp only [List.forall_mem_append, List.forall_mem_cons]
      exact ⟨whole, point, fraction⟩
  · simp only [Literal.spelling, if_pos integral, List.append_nil, List.forall_mem_append,
      List.forall_mem_singleton]
    exact ⟨whole, point⟩

/-- Nothing but digits and points stands in an unsigned operand. -/
theorem notMem_of_isUnsigned {c : Char} (other : isNumeralCharacter c = false) : c ∉ digits :=
  fun member => Bool.false_ne_true (other.symm.trans (isNumeralCharacter_of_isUnsigned unsigned c member))

/-- The beginning of an unsigned numeral is one, too. -/
theorem isUnsigned_of_prefix {front : Text} (inside : front <+: digits) (nonempty : front ≠ []) :
    isUnsigned front = true := by
  obtain ⟨back, rfl⟩ := inside
  obtain ⟨starts, continues⟩ := Bool.and_eq_true_iff.mp unsigned
  rw [List.head?_append_of_ne_nil _ nonempty] at starts
  rw [List.dropWhile_append] at continues
  rw [isUnsigned, starts, Bool.true_and]
  cases later : front.dropWhile Char.isDigit with
  | nil => rfl
  | cons c fraction =>
    rw [later, List.isEmpty_cons, if_neg Bool.false_ne_true, List.cons_append] at continues
    split at continues
    · next none => cases none
    · next same =>
      obtain ⟨rfl, rfl⟩ := List.cons.inj same
      rw [List.all_append, Bool.and_eq_true] at continues
      exact continues.1
    · cases continues

/-- A digit in front makes an unsigned numeral longer. -/
theorem isUnsigned_cons {c : Char} (digit : c.isDigit = true) : isUnsigned (c :: digits) = true := by
  have continues := (Bool.and_eq_true_iff.mp unsigned).2
  rw [isUnsigned, List.dropWhile_cons_of_pos digit, continues, Bool.and_true]
  exact digit

end Unsigned

/-- A digit and a point in front of digits make an unsigned numeral. -/
theorem isUnsigned_cons_point {c : Char} {digits : Text} (digit : c.isDigit = true)
    (all : digits.all Char.isDigit = true) : isUnsigned (c :: '.' :: digits) = true := by
  have point : ¬ '.'.isDigit = true := by decide
  rw [isUnsigned, List.dropWhile_cons_of_pos digit, List.dropWhile_cons_of_neg point]
  exact Bool.and_eq_true_iff.mpr ⟨digit, all⟩

/-- A numeral with or without a minus sign. -/
def signed (negative : Bool) (digits : Text) : Text := if negative then '-' :: digits else digits

/-- The four forms of an operand. -/
def written (wrapped negative : Bool) (digits : Text) : Text :=
  if wrapped then '(' :: (signed negative digits ++ [')']) else signed negative digits

/-- Numerals are the unsigned ones, with or without a minus sign. -/
theorem isNumeral_iff {text : Text} :
    isNumeral text = true ↔ ∃ negative digits, isUnsigned digits = true ∧
      text = signed negative digits := by
  constructor
  · intro numeral
    unfold isNumeral at numeral
    split at numeral
    · exact ⟨true, _, numeral, rfl⟩
    · exact ⟨false, _, numeral, rfl⟩
  · rintro ⟨negative, digits, unsigned, rfl⟩
    cases negative with
    | true => exact unsigned
    | false =>
      obtain ⟨c, rest, rfl, digit⟩ := exists_cons_of_isUnsigned unsigned
      have noMinus : c ≠ '-' := ne_of_isDigit digit rfl
      simp [signed, isNumeral, noMinus, unsigned]

/-- Operands in parentheses are the numerals, each with one pair around it. -/
theorem isWrapped_iff {text : Text} :
    isWrapped text = true ↔ ∃ negative digits, isUnsigned digits = true ∧
      text = written true negative digits := by
  constructor
  · intro wrapped
    unfold isWrapped at wrapped
    split at wrapped
    · next rest =>
      simp only [Bool.and_eq_true, beq_iff_eq] at wrapped
      obtain ⟨negative, digits, unsigned, inside⟩ := isNumeral_iff.mp wrapped.2
      obtain ⟨inner, rfl⟩ := List.getLast?_eq_some_iff.mp wrapped.1
      rw [List.dropLast_concat] at inside
      exact ⟨negative, digits, unsigned, by rw [inside]; rfl⟩
    · cases wrapped
  · rintro ⟨negative, digits, unsigned, rfl⟩
    have inside := isNumeral_iff.mpr ⟨negative, digits, unsigned, rfl⟩
    simp [written, isWrapped, inside]

/-- What can be negated is an unsigned numeral in one of the four forms. -/
theorem isOperand_iff {text : Text} :
    isOperand text = true ↔ ∃ wrapped negative digits, isUnsigned digits = true ∧
      text = written wrapped negative digits := by
  rw [isOperand, Bool.or_eq_true, isNumeral_iff, isWrapped_iff]
  constructor
  · rintro (⟨negative, digits, numeral⟩ | ⟨negative, digits, wrapped⟩)
    · exact ⟨false, negative, digits, numeral⟩
    · exact ⟨true, negative, digits, wrapped⟩
  · rintro ⟨_ | _, negative, digits, spelled⟩
    · exact .inl ⟨negative, digits, spelled⟩
    · exact .inr ⟨negative, digits, spelled⟩

theorem written_ne_nil {digits : Text} (unsigned : isUnsigned digits = true) (wrapped negative : Bool) :
    written wrapped negative digits ≠ [] := by
  obtain ⟨c, rest, rfl, -⟩ := exists_cons_of_isUnsigned unsigned
  cases wrapped <;> cases negative <;> exact List.cons_ne_nil _ _

/-- The parentheses of an operand are balanced. -/
theorem count_opening_written {digits : Text} (unsigned : isUnsigned digits = true)
    (wrapped negative : Bool) :
    (written wrapped negative digits).count '(' = (written wrapped negative digits).count ')' := by
  have absent (c : Char) (other : isNumeralCharacter c = false) : digits.count c = 0 :=
    List.count_eq_zero.mpr (notMem_of_isUnsigned unsigned other)
  cases wrapped <;> cases negative <;>
    simp [written, signed, absent '(' (by decide), absent ')' (by decide)]

section Forms

variable {digits other : Text} {wrapped otherWrapped negative otherNegative : Bool}
  (unsigned : isUnsigned digits = true) (otherUnsigned : isUnsigned other = true)
include unsigned otherUnsigned

theorem signed_inj (same : signed negative digits = signed otherNegative other) :
    negative = otherNegative ∧ digits = other := by
  obtain ⟨c, rest, rfl, digit⟩ := exists_cons_of_isUnsigned unsigned
  obtain ⟨d, otherRest, rfl, otherDigit⟩ := exists_cons_of_isUnsigned otherUnsigned
  have noMinus : c ≠ '-' := ne_of_isDigit digit rfl
  have otherNoMinus : '-' ≠ d := (ne_of_isDigit otherDigit rfl).symm
  cases negative <;> cases otherNegative <;>
    simp [signed, noMinus, otherNoMinus] at same ⊢ <;> exact same

/-- An operand has only one of the four forms. -/
theorem written_inj (same : written wrapped negative digits = written otherWrapped otherNegative other) :
    wrapped = otherWrapped ∧ negative = otherNegative ∧ digits = other := by
  have noParenthesis {negative : Bool} {digits after : Text} (unsigned : isUnsigned digits = true) :
      signed negative digits ≠ '(' :: after := by
    obtain ⟨c, rest, rfl, digit⟩ := exists_cons_of_isUnsigned unsigned
    have other : c ≠ '(' := ne_of_isDigit digit rfl
    cases negative <;> simp [signed, other]
  cases wrapped with
  | false =>
    cases otherWrapped with
    | false => exact ⟨rfl, signed_inj unsigned otherUnsigned same⟩
    | true => exact absurd same (noParenthesis unsigned)
  | true =>
    cases otherWrapped with
    | false => exact absurd same.symm (noParenthesis otherUnsigned)
    | true =>
      have inside := List.append_cancel_right (List.cons.inj same).2
      exact ⟨rfl, signed_inj unsigned otherUnsigned inside⟩

end Forms

/-- Negating changes the sign, and the result is in parentheses exactly if it is negative. -/
theorem negate_written (wrapped negative : Bool) {digits : Text}
    (unsigned : isUnsigned digits = true) :
    negate (written wrapped negative digits) = written (!negative) (!negative) digits := by
  obtain ⟨c, rest, spelled, digit⟩ := exists_cons_of_isUnsigned unsigned
  have noMinus : c ≠ '-' := ne_of_isDigit digit rfl
  have noParenthesis : c ≠ '(' := ne_of_isDigit digit rfl
  have bare : (if isWrapped (written wrapped negative digits) then
      (written wrapped negative digits).tail.dropLast else written wrapped negative digits) =
        signed negative digits := by
    cases wrapped with
    | true =>
      rw [if_pos (isWrapped_iff.mpr ⟨negative, digits, unsigned, rfl⟩)]
      simp [written]
    | false =>
      rw [if_neg]
      · rfl
      · cases negative <;> simp [written, signed, isWrapped, spelled, noParenthesis]
  simp only [negate, bare]
  cases negative with
  | true => rfl
  | false => simp [signed, written, spelled, noMinus]

/-- Whether the last character of a text is an operator sign. -/
def endsWithSign (text : Text) : Bool := text.getLast?.any isOperatorSign

theorem endsWithSign_cons {c : Char} {text : Text} (nonempty : text ≠ []) :
    endsWithSign (c :: text) = endsWithSign text := by
  rw [endsWithSign, List.getLast?_cons_of_ne_nil nonempty, endsWithSign]

theorem isOperatorSign_cases {c : Char} (sign : isOperatorSign c = true) :
    c = '+' ∨ c = '-' ∨ c = 'x' ∨ c = '÷' := by
  simpa [isOperatorSign] using sign

theorem isNumeralCharacter_of_isOperatorSign {c : Char} (sign : isOperatorSign c = true) :
    isNumeralCharacter c = false := by
  rcases isOperatorSign_cases sign with rfl | rfl | rfl | rfl <;> rfl

theorem isOperatorSign_of_isNumeralCharacter {c : Char} (numeral : isNumeralCharacter c = true) :
    isOperatorSign c = false := by
  refine Bool.eq_false_iff.mpr fun sign => ?_
  exact Bool.false_ne_true ((isNumeralCharacter_of_isOperatorSign sign).symm.trans numeral)

/-- No run of digits and points goes on behind an operator sign. -/
theorem noRun_of_endsWithSign {text : Text} (sign : endsWithSign text = true) :
    text.getLast?.any isNumeralCharacter = false := by
  rw [endsWithSign] at sign
  cases last : text.getLast? with
  | none => rfl
  | some c =>
    rw [last] at sign
    exact isNumeralCharacter_of_isOperatorSign sign

/-- The text ends with an operand. -/
structure AtEnd (text before operand : Text) : Prop where
  split : before ++ operand = text
  isOperand : isOperand operand = true

section Search

variable {text before operand front back : Text}

theorem AtEnd.cons (c : Char) (ends : AtEnd text before operand) :
    AtEnd (c :: text) (c :: before) operand :=
  ⟨by rw [List.cons_append, ends.split], ends.isOperand⟩

/-- An operand at the end of a text begins with its first character or behind it. -/
theorem AtEnd.cons_cases {c : Char} (ends : AtEnd (c :: text) front back) :
    front = [] ∧ back = c :: text ∨ ∃ inner, front = c :: inner ∧ AtEnd text inner back := by
  cases front with
  | nil => exact .inl ⟨rfl, ends.split⟩
  | cons first inner =>
    obtain ⟨rfl, split⟩ := List.cons.inj ends.split
    exact .inr ⟨inner, rfl, split, ends.isOperand⟩

/-- What is found behind an operator sign is the longest operand that stands behind one. -/
theorem splitAtSign?_eq_some (found : splitAtSign? text = some (before, operand)) :
    AtEnd text before operand ∧ endsWithSign before = true ∧
      ∀ front back, AtEnd text front back → endsWithSign front = true → before <+: front := by
  fun_induction splitAtSign? text generalizing before with
  | case1 => cases found
  | case2 c rest sign =>
    cases found
    obtain ⟨sign, isOperand⟩ := Bool.and_eq_true_iff.mp sign
    refine ⟨⟨rfl, isOperand⟩, sign, fun front back ends signed => ?_⟩
    obtain ⟨rfl, -⟩ | ⟨inner, rfl, -⟩ := ends.cons_cases
    · cases signed
    · exact ⟨inner, rfl⟩
  | case3 => cases found
  | case4 c rest noSign noBreak ih =>
    obtain ⟨⟨inner, operand⟩, later, same⟩ := Option.map_eq_some_iff.mp found
    cases same
    obtain ⟨ends, signed, shortest⟩ := ih later
    have nonempty : inner ≠ [] := by
      rintro rfl
      cases signed
    refine ⟨ends.cons c, (endsWithSign_cons nonempty).trans signed, fun front back other sign => ?_⟩
    obtain ⟨rfl, -⟩ | ⟨front, rfl, inside⟩ := other.cons_cases
    · cases sign
    · by_cases first : front = []
      · subst first
        obtain rfl : back = rest := inside.split
        have start : (isOperatorSign c && isOperand back) = true := by
          rw [inside.isOperand, Bool.and_true]
          exact sign
        exact absurd start noSign
      · rw [endsWithSign_cons first] at sign
        exact (List.prefix_cons_inj c).mpr (shortest front back inside sign)

/-- Nothing is found behind an operator sign only if nothing is there. -/
theorem endsWithSign_of_splitAtSign?_eq_none (noBreak : '\n' ∉ text)
    (notFound : splitAtSign? text = none) (ends : AtEnd text front back) :
    endsWithSign front = false := by
  fun_induction splitAtSign? text generalizing front with
  | case1 =>
    have empty : front = [] := (List.append_eq_nil_iff.mp ends.split).1
    rw [empty]
    rfl
  | case2 => cases notFound
  | case3 => exact absurd (List.mem_cons_self ..) noBreak
  | case4 c rest noSign other ih =>
    obtain ⟨rfl, -⟩ | ⟨inner, rfl, inside⟩ := ends.cons_cases
    · rfl
    · by_cases first : inner = []
      · subst first
        obtain rfl : back = rest := inside.split
        rw [inside.isOperand, Bool.and_true] at noSign
        exact Bool.eq_false_iff.mpr noSign
      · rw [endsWithSign_cons first]
        exact ih (fun member => noBreak (List.mem_cons_of_mem _ member))
          (Option.map_eq_none_iff.mp notFound) inside

/-- The operand that is found stands at the end of the text. -/
theorem atEnd_of_split? (found : split? text = some (before, operand)) :
    AtEnd text before operand := by
  fun_induction split? text generalizing before with
  | case1 => cases found
  | case2 c rest atSign sign =>
    cases found
    exact (splitAtSign?_eq_some sign).1
  | case3 c rest noSign isOperand =>
    cases found
    exact ⟨rfl, isOperand⟩
  | case4 c rest noSign noOperand ih =>
    obtain ⟨⟨inner, operand⟩, later, same⟩ := Option.map_eq_some_iff.mp found
    cases same
    exact (ih later).cons c

/-- An operand is found unless none stands at the end. -/
theorem split?_eq_none_iff :
    split? text = none ↔ ∀ front back, ¬ AtEnd text front back := by
  constructor
  · intro notFound front back ends
    fun_induction split? text generalizing front with
    | case1 =>
      obtain rfl : back = [] := (List.append_eq_nil_iff.mp ends.split).2
      exact Bool.false_ne_true ends.isOperand
    | case2 => cases notFound
    | case3 => cases notFound
    | case4 c rest noSign noOperand ih =>
      obtain ⟨rfl, rfl⟩ | ⟨inner, rfl, inside⟩ := ends.cons_cases
      · exact noOperand ends.isOperand
      · exact ih (Option.map_eq_none_iff.mp notFound) inner inside
  · intro noOperand
    cases found : split? text with
    | none => rfl
    | some pair => exact absurd (atEnd_of_split? found) (noOperand pair.1 pair.2)

/-- The operand that is found stands behind an operator sign or cannot be made longer. -/
theorem endsWithSign_or_longest (found : split? text = some (before, operand)) :
    endsWithSign before = true ∨ ∀ front back, AtEnd text front back → before <+: front := by
  fun_induction split? text generalizing before with
  | case1 => cases found
  | case2 c rest atSign sign =>
    cases found
    exact .inl (splitAtSign?_eq_some sign).2.1
  | case3 c rest noSign isOperand =>
    cases found
    exact .inr fun front back _ => List.nil_prefix
  | case4 c rest noSign noOperand ih =>
    obtain ⟨⟨inner, operand⟩, later, same⟩ := Option.map_eq_some_iff.mp found
    cases same
    refine (ih later).imp (fun sign => ?_) fun longest front back ends => ?_
    · have nonempty : inner ≠ [] := by
        rintro rfl
        cases sign
      rw [endsWithSign_cons nonempty, sign]
    · obtain ⟨-, rfl⟩ | ⟨front, rfl, inside⟩ := ends.cons_cases
      · exact absurd ends.isOperand noOperand
      · exact (List.prefix_cons_inj c).mpr (longest front back inside)

/-- On a single line, an operand behind an operator sign is preferred to any other one, and the
longest of them is found. -/
theorem prefix_of_split? (noBreak : '\n' ∉ text) (found : split? text = some (before, operand))
    (ends : AtEnd text front back) (sign : endsWithSign front = true) :
    endsWithSign before = true ∧ before <+: front := by
  cases text with
  | nil => cases found
  | cons c rest =>
    cases atSign : splitAtSign? (c :: rest) with
    | none =>
      have noSign := endsWithSign_of_splitAtSign?_eq_none noBreak atSign ends
      exact absurd (noSign.symm.trans sign) Bool.false_ne_true
    | some pair =>
      rw [split?, atSign] at found
      cases found
      obtain ⟨-, signed, shortest⟩ := splitAtSign?_eq_some atSign
      exact ⟨signed, shortest front back ends sign⟩

/-- A minus sign in front of the operand is read as an operator sign if another one stands before
it. -/
theorem endsWithSign_of_negative {digits : Text} (unsigned : isUnsigned digits = true)
    (found : split? text = some (before, '-' :: digits)) : endsWithSign before = true := by
  fun_induction split? text generalizing before with
  | case1 => cases found
  | case2 c rest atSign sign =>
    cases found
    exact (splitAtSign?_eq_some sign).2.1
  | case3 c rest noSign isOperand =>
    -- The search would have taken the minus sign itself for the operator sign.
    cases found
    have operand : Operand.isOperand digits = true :=
      isOperand_iff.mpr ⟨false, false, digits, unsigned, rfl⟩
    have taken : splitAtSign? ('-' :: digits) = some (['-'], digits) := by
      rw [splitAtSign?, operand]
      rfl
    cases taken.symm.trans noSign
  | case4 c rest noSign noOperand ih =>
    obtain ⟨⟨inner, operand⟩, later, same⟩ := Option.map_eq_some_iff.mp found
    cases same
    have sign := ih later
    have nonempty : inner ≠ [] := by
      rintro rfl
      cases sign
    rw [endsWithSign_cons nonempty, sign]

end Search

theorem getLast?_written (negative : Bool) (digits : Text) :
    (written true negative digits).getLast? = some ')' := by
  simp [written, List.getLast?_cons]

section Found

variable {before front back digits : Text} (unsigned : isUnsigned digits = true)
include unsigned

/-- An operand without parentheses ends with a character of its numeral. -/
theorem exists_getLast?_signed (negative : Bool) :
    ∃ c, (signed negative digits).getLast? = some c ∧ isNumeralCharacter c = true := by
  obtain ⟨c, rest, spelled, -⟩ := exists_cons_of_isUnsigned unsigned
  have nonempty : digits ≠ [] := by simp [spelled]
  have last : (signed negative digits).getLast? = digits.getLast? := by
    cases negative with
    | true => exact List.getLast?_cons_of_ne_nil nonempty
    | false => rfl
  refine ⟨digits.getLast nonempty, ?_, ?_⟩
  · rw [last, List.getLast?_eq_some_getLast nonempty]
  · exact isNumeralCharacter_of_isUnsigned unsigned _ (List.getLast_mem nonempty)

private theorem count_written (negative : Bool) : (written true negative digits).count '(' = 1 := by
  have noParenthesis : '(' ∉ digits := notMem_of_isUnsigned unsigned (by decide)
  cases negative <;> simp [written, signed, List.count_eq_zero_of_not_mem noParenthesis]

private theorem eq_nil_of_written_eq_append {negative otherNegative : Bool} {other : Text}
    (otherUnsigned : isUnsigned other = true)
    (inside : written true negative digits = front ++ written true otherNegative other) :
    front = [] := by
  cases front with
  | nil => rfl
  | cons c front =>
    obtain ⟨rfl, -⟩ := List.cons.inj inside
    have outer := count_written unsigned negative
    rw [inside, List.count_append, count_written otherUnsigned, List.count_cons_self] at outer
    omega

/-- An operand in parentheses is the only one at the end of its text. -/
theorem eq_of_atEnd_written {negative : Bool}
    (ends : AtEnd (before ++ written true negative digits) front back) : front = before := by
  obtain ⟨wrapped, otherNegative, other, otherUnsigned, rfl⟩ := isOperand_iff.mp ends.isOperand
  cases wrapped with
  | false =>
    obtain ⟨c, last, character⟩ := exists_getLast?_signed otherUnsigned otherNegative
    have whole := congrArg List.getLast? ends.split
    rw [List.getLast?_append, List.getLast?_append, getLast?_written] at whole
    obtain rfl : c = ')' := by simpa [written, last] using whole
    exact absurd character (by decide)
  | true =>
    rcases List.append_eq_append_iff.mp ends.split with ⟨more, rfl, longer⟩ | ⟨more, rfl, shorter⟩
    · rw [eq_nil_of_written_eq_append otherUnsigned unsigned longer, List.append_nil]
    · rw [eq_nil_of_written_eq_append unsigned otherUnsigned shorter, List.append_nil]

/-- The search finds every operand in parentheses. -/
theorem split?_append_written (negative : Bool) :
    split? (before ++ written true negative digits) =
      some (before, written true negative digits) := by
  have here : AtEnd (before ++ written true negative digits) before (written true negative digits) :=
    ⟨rfl, isOperand_iff.mpr ⟨true, negative, digits, unsigned, rfl⟩⟩
  cases found : split? (before ++ written true negative digits) with
  | none => exact absurd here (split?_eq_none_iff.mp found before _)
  | some pair =>
    obtain ⟨front, back⟩ := pair
    have ends := atEnd_of_split? found
    obtain rfl := eq_of_atEnd_written unsigned ends
    rw [List.append_cancel_left ends.split]

private theorem exists_signed_of_isOperand_append (operand : isOperand (front ++ digits) = true) :
    ∃ negative other, isUnsigned other = true ∧ front ++ digits = signed negative other := by
  obtain ⟨wrapped, negative, other, otherUnsigned, spelled⟩ := isOperand_iff.mp operand
  cases wrapped with
  | false => exact ⟨negative, other, otherUnsigned, spelled⟩
  | true =>
    obtain ⟨last, ending, character⟩ := exists_getLast?_signed unsigned false
    replace ending : digits.getLast? = some last := ending
    have whole := congrArg List.getLast? spelled
    rw [List.getLast?_append, getLast?_written, ending] at whole
    obtain rfl : last = ')' := Option.some.inj whole
    exact absurd character (by decide)

private theorem minus_or_longer (operand : isOperand (front ++ digits) = true) :
    front = [] ∨ front = ['-'] ∨
      ∃ more, more ≠ [] ∧ more <:+ front ∧ isUnsigned (more ++ digits) = true := by
  -- In front of an unsigned numeral stands the minus sign, or what makes the numeral longer.
  obtain ⟨negative, other, otherUnsigned, spelled⟩ := exists_signed_of_isOperand_append unsigned operand
  cases front with
  | nil => exact .inl rfl
  | cons c inner =>
    cases negative with
    | false =>
      have longer : isUnsigned (c :: inner ++ digits) = true := spelled.symm ▸ otherUnsigned
      exact .inr (.inr ⟨c :: inner, List.cons_ne_nil _ _, List.suffix_refl _, longer⟩)
    | true =>
      obtain ⟨rfl, split⟩ := List.cons.inj spelled
      have same : inner ++ digits = other := split
      have longer : isUnsigned (inner ++ digits) = true := same ▸ otherUnsigned
      by_cases empty : inner = []
      · exact .inr (.inl (by rw [empty]))
      · exact .inr (.inr ⟨inner, empty, List.suffix_cons _ _, longer⟩)

private theorem eq_nil_of_isOperand_append (operand : isOperand (front ++ '-' :: digits) = true) :
    front = [] := by
  rw [List.append_cons] at operand
  obtain ⟨negative, other, otherUnsigned, spelled⟩ := exists_signed_of_isOperand_append unsigned operand
  have noMinus : '-' ∉ other := notMem_of_isUnsigned otherUnsigned (by decide)
  cases front with
  | nil => rfl
  | cons c inner =>
    refine absurd ?_ noMinus
    cases negative with
    | false =>
      have same : c :: inner ++ ['-'] ++ digits = other := spelled
      simp [← same]
    | true =>
      have same : inner ++ ['-'] ++ digits = other := (List.cons.inj spelled).2
      simp [← same]

private theorem atEnd_append_unsigned (before : Text) : AtEnd (before ++ digits) before digits :=
  ⟨rfl, isOperand_iff.mpr ⟨false, false, digits, unsigned, rfl⟩⟩

private theorem isPrefix_of_split?_append {front back : Text}
    (found : split? (before ++ digits) = some (front, back)) : front <+: before := by
  rcases endsWithSign_or_longest found with sign | longest
  · have ends := atEnd_of_split? found
    rcases List.append_eq_append_iff.mp ends.split with ⟨more, split, -⟩ | ⟨inner, rfl, shorter⟩
    · exact ⟨more, split.symm⟩
    · by_cases empty : inner = []
      · exact ⟨[], by simp [empty]⟩
      · -- No character of the numeral is an operator sign.
        rw [endsWithSign, List.getLast?_append_of_ne_nil _ empty,
          List.getLast?_eq_some_getLast empty] at sign
        have character := isNumeralCharacter_of_isUnsigned unsigned (inner.getLast empty)
          (shorter ▸ List.mem_append_left _ (List.getLast_mem empty))
        rw [isNumeralCharacter_of_isOperatorSign sign] at character
        cases character
  · exact longest before digits (atEnd_append_unsigned unsigned before)

/-- The search finds an unsigned numeral that cannot be made longer, behind a text that does not end with a
minus sign that could belong to it. -/
theorem split?_append_longest (noBreak : '\n' ∉ before)
    (longest : ∀ more, more ≠ [] → more <:+ before → isUnsigned (more ++ digits) = false)
    (noSign : ∀ front, before = front ++ ['-'] → endsWithSign front = false) :
    split? (before ++ digits) = some (before, digits) := by
  have here := atEnd_append_unsigned unsigned before
  cases found : split? (before ++ digits) with
  | none => exact absurd here (split?_eq_none_iff.mp found before _)
  | some pair =>
    obtain ⟨front, back⟩ := pair
    have ends := atEnd_of_split? found
    obtain ⟨more, rfl⟩ := isPrefix_of_split?_append unsigned found
    obtain rfl : back = more ++ digits := by simpa using ends.split
    rcases minus_or_longer unsigned ends.isOperand with rfl | rfl | ⟨longer, nonempty, inside, numeral⟩
    · simp
    · have sign : endsWithSign (front ++ ['-']) = true := by
        rw [endsWithSign, List.getLast?_concat]
        rfl
      have noBreakBehind : '\n' ∉ front ++ ['-'] ++ digits := fun member =>
        (List.mem_append.mp member).elim noBreak (notMem_of_isUnsigned unsigned (by decide))
      have preferred := (prefix_of_split? noBreakBehind found here sign).1
      exact absurd ((noSign front rfl).symm.trans preferred) Bool.false_ne_true
    · have shorter := longest longer nonempty (inside.trans (List.suffix_append front more))
      exact absurd (shorter.symm.trans numeral) Bool.false_ne_true

/-- The search finds an unsigned numeral behind a text that neither ends with a character of a
numeral nor with a minus sign that could belong to it. -/
theorem split?_append_unsigned (noBreak : '\n' ∉ before)
    (apart : before.getLast?.any isNumeralCharacter = false)
    (noSign : ∀ front, before = front ++ ['-'] → endsWithSign front = false) :
    split? (before ++ digits) = some (before, digits) := by
  refine split?_append_longest unsigned noBreak (fun more nonempty inside => ?_) noSign
  obtain ⟨front, rfl⟩ := inside
  have last := List.getLast?_eq_some_getLast nonempty
  rw [List.getLast?_append_of_ne_nil _ nonempty, last] at apart
  refine Bool.eq_false_iff.mpr fun longer => ?_
  have character := isNumeralCharacter_of_isUnsigned longer (more.getLast nonempty)
    (List.mem_append_left _ (List.getLast_mem nonempty))
  exact absurd (apart.symm.trans character) Bool.false_ne_true

/-- Behind a minus sign the search finds the numeral, and with its sign if another operator sign stands in
front of this one. -/
theorem split?_append_minus (noBreak : '\n' ∉ before) :
    split? (before ++ '-' :: digits) =
      some (if endsWithSign before then (before, '-' :: digits) else (before ++ ['-'], digits)) := by
  have behind : AtEnd (before ++ '-' :: digits) (before ++ ['-']) digits := by
    have ends := atEnd_append_unsigned unsigned (before ++ ['-'])
    rwa [List.append_assoc] at ends
  have sign : endsWithSign (before ++ ['-']) = true := by
    rw [endsWithSign, List.getLast?_concat]
    rfl
  have noBreakBehind : '\n' ∉ before ++ '-' :: digits := by
    have noDigit : '\n' ∉ digits := notMem_of_isUnsigned unsigned (by decide)
    simp [noBreak, noDigit]
  cases found : split? (before ++ '-' :: digits) with
  | none => exact absurd behind (split?_eq_none_iff.mp found _ _)
  | some pair =>
    obtain ⟨front, back⟩ := pair
    have ends := atEnd_of_split? found
    obtain ⟨signed, inside⟩ := prefix_of_split? noBreakBehind found behind sign
    rcases List.prefix_concat_iff.mp inside with rfl | ⟨more, rfl⟩
    · obtain rfl : back = digits := by simpa using ends.split
      rw [if_neg]
      intro signBefore
      -- The longer operand would have been preferred.
      have negative : AtEnd (before ++ '-' :: back) before ('-' :: back) :=
        ⟨rfl, isOperand_iff.mpr ⟨false, true, back, unsigned, rfl⟩⟩
      have shorter := (prefix_of_split? noBreakBehind found negative signBefore).2.length_le
      rw [List.length_append, List.length_singleton] at shorter
      omega
    · obtain rfl : back = more ++ '-' :: digits := by simpa using ends.split
      obtain rfl := eq_nil_of_isOperand_append unsigned ends.isOperand
      rw [List.append_nil, if_pos signed]
      rfl

end Found

end Operand

end Calculator
