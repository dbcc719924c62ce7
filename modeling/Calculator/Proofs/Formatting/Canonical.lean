import Calculator.Proofs.Shown

/-! # Decimals have canonical texts

The text of a decimal has no superfluous zero, neither in front nor behind the point, and no sign on zero.
It denotes the decimal itself, and scanning reads it as one number.
-/

namespace Calculator

/-- The number that a text denotes: the literal at its start, or the opposite of the literal that a minus
sign stands in front of. -/
def Literal.denoted : Text → Rat
  | '-' :: digits => -(atStart digits).decimal.value
  | digits => (atStart digits).decimal.value

/-- A digit from 1 to 9. -/
def IsNonzeroDigit (c : Char) : Prop := c.isDigit = true ∧ c ≠ '0'

/-- Digits without a zero in front: `0|[1-9][0-9]*`. -/
inductive IsWholePart : Text → Prop
  | zero : IsWholePart ['0']
  | digits {first : Char} {rest : Text} : IsNonzeroDigit first → (∀ c ∈ rest, c.isDigit = true) →
      IsWholePart (first :: rest)

/-- Nothing, or a point and digits without a zero at the end: `([.][0-9]{0,places-1}[1-9])?`. -/
inductive IsFractionPart (places : Nat) : Text → Prop
  | none : IsFractionPart places []
  | digits {digits : Text} {last : Char} : digits.length < places → (∀ c ∈ digits, c.isDigit = true) →
      IsNonzeroDigit last → IsFractionPart places ('.' :: (digits ++ [last]))

/-- A text in the form `-?(0|[1-9][0-9]*)([.][0-9]{0,places-1}[1-9])?` that is not `-0`. -/
structure IsCanonicalText (places : Nat) (text : Text) : Prop where
  parts : ∃ sign whole fraction, text = sign ++ whole ++ fraction ∧ (sign = [] ∨ sign = ['-']) ∧
    IsWholePart whole ∧ IsFractionPart places fraction
  ne_minus_zero : text ≠ ['-', '0']

theorem IsFractionPart.mono {places more : Nat} {text : Text} (le : places ≤ more)
    (fraction : IsFractionPart places text) : IsFractionPart more text := by
  cases fraction with
  | none => exact .none
  | digits short digitsOnly last => exact .digits (short.trans_le le) digitsOnly last

theorem IsCanonicalText.mono {places more : Nat} {text : Text} (le : places ≤ more)
    (canonical : IsCanonicalText places text) : IsCanonicalText more text := by
  obtain ⟨sign, whole, fraction, split, signed, first, second⟩ := canonical.parts
  exact ⟨⟨sign, whole, fraction, split, signed, first, second.mono le⟩, canonical.ne_minus_zero⟩

namespace Decimal

/-! ### The digits in front of the point -/

private theorem digitChar_ne_zero {n : Nat} (positive : n ≠ 0) (small : n < 10) :
    Nat.digitChar n ≠ '0' := by
  interval_cases n <;> first | exact absurd rfl positive | decide

private theorem head?_toDigits_ne_zero {n : Nat} (positive : n ≠ 0) :
    (Nat.toDigits 10 n).head? ≠ some '0' := by
  induction n using Nat.strong_induction_on with
  | _ n ih =>
    by_cases single : n < 10
    · rw [Nat.toDigits_of_lt_base single]
      simpa using digitChar_ne_zero positive single
    · rw [Nat.toDigits_of_base_le (by decide) (not_lt.mp single),
        List.head?_append_of_ne_nil _ Nat.toDigits_ne_nil]
      exact ih (n / 10) (by omega) (by omega)

/-- A natural number is written without leading zeros. -/
theorem isWholePart_toDigits (n : Nat) : IsWholePart (Nat.toDigits 10 n) := by
  by_cases zero : n = 0
  · rw [zero, Nat.toDigits_zero]
    exact .zero
  · have digitsOnly : ∀ c ∈ Nat.toDigits 10 n, c.isDigit = true :=
      fun c member => Nat.isDigit_of_mem_toDigits (by decide) (by decide) member
    have head := head?_toDigits_ne_zero zero
    obtain ⟨first, rest, split⟩ := List.exists_cons_of_ne_nil (Nat.toDigits_ne_nil (n := n) (b := 10))
    rw [split] at digitsOnly head ⊢
    rw [List.forall_mem_cons] at digitsOnly
    exact .digits ⟨digitsOnly.1, fun same => head (congrArg some same)⟩ digitsOnly.2

/-! ### The digits behind the point -/

theorem getLast?_trimZeros_ne (text : Text) : (trimZeros text).getLast? ≠ some '0' := by
  intro last
  have first := List.head?_dropWhile_not (· == '0') text.reverse
  rw [trimZeros, List.getLast?_reverse] at last
  rw [last] at first
  simp at first

theorem length_trimZeros_le (text : Text) : (trimZeros text).length ≤ text.length := by
  have suffix := (List.dropWhile_suffix (· == '0') (l := text.reverse)).length_le
  simpa [trimZeros] using suffix

/-- A decimal shows at most the places that it has. -/
theorem length_fractionDigits_le (d : Decimal) : d.fractionDigits.length ≤ d.places := by
  rcases Nat.eq_zero_or_pos d.places with none | places
  · have empty : d.fractionDigits = [] := by
      rw [fractionDigits, none, show Nat.pow 10 0 = 1 from rfl, Nat.mod_one, Nat.toDigits_zero]
      rfl
    rw [empty]
    exact Nat.zero_le _
  · have below : d.coefficient.natAbs % 10 ^ d.places < 10 ^ d.places := Nat.mod_lt _ (by positivity)
    have short := (Nat.length_toDigits_le_iff (by decide : 1 < 10) places).mpr below
    calc d.fractionDigits.length
        ≤ ((Nat.toDigits 10 (d.coefficient.natAbs % 10 ^ d.places)).leftpad d.places '0').length :=
          length_trimZeros_le _
      _ = d.places := by
          rw [List.length_leftpad]
          omega

/-- The digits behind the point end with one that is not zero, or point and digits are left out. -/
theorem isFractionPart_fractionDigits (d : Decimal) : IsFractionPart d.places
    (if d.fractionDigits = [] then [] else '.' :: d.fractionDigits) := by
  split_ifs with none
  · exact .none
  · obtain ⟨digits, last, split⟩ := (List.eq_nil_or_concat' d.fractionDigits).resolve_left none
    have nonzero : last ≠ '0' := by
      rintro rfl
      refine getLast?_trimZeros_ne _ (?_ : d.fractionDigits.getLast? = _)
      simp [split]
    have digitsOnly := d.numeral.fraction_digits
    change ∀ c ∈ d.fractionDigits, c.isDigit = true at digitsOnly
    have short := d.length_fractionDigits_le
    rw [split] at digitsOnly short ⊢
    rw [List.length_append, List.length_singleton] at short
    refine .digits (by omega) (fun c member => digitsOnly c (by simp [member])) ⟨?_, nonzero⟩
    exact digitsOnly last (by simp)

/-! ### The whole text -/

private theorem spelling_ne_minus (numeral : Numeral) (rest : Text) : numeral.spelling ≠ '-' :: rest := by
  intro minus
  have digit := numeral.startsWithDigit_append []
  rw [List.append_nil, minus] at digit
  cases digit

/-- The text of a decimal denotes the decimal. -/
theorem denoted_text (d : Decimal) : Literal.denoted d.text = d.value := by
  obtain ⟨-, spelled⟩ := d.text_eq_signed
  have literal : (Literal.atStart d.numeral.spelling).decimal.value = |d.value| := by
    rw [Numeral.atStart_spelling, value_numeral]
  by_cases negative : d.coefficient < 0
  · rw [spelled, Operand.signed, if_pos (decide_eq_true negative), Literal.denoted, literal,
      abs_of_neg (d.value_neg_iff.mpr negative), neg_neg]
  · have nonneg : 0 ≤ d.value := not_lt.mp (mt d.value_neg_iff.mp negative)
    rw [spelled, Operand.signed, if_neg (by simpa using negative), Literal.denoted, literal,
      abs_of_nonneg nonneg]
    exact fun rest => spelling_ne_minus d.numeral rest

/-- The text of a decimal is canonical. -/
theorem isCanonicalText_text (d : Decimal) : IsCanonicalText d.places d.text where
  parts := by
    refine ⟨if d.coefficient < 0 then ['-'] else [], d.wholeDigits,
      if d.fractionDigits = [] then [] else '.' :: d.fractionDigits, ?_, ?_,
      isWholePart_toDigits _, d.isFractionPart_fractionDigits⟩
    · by_cases negative : d.coefficient < 0 <;> simp [text, negative]
    · by_cases negative : d.coefficient < 0 <;> simp [negative]
  ne_minus_zero same := by
    have zero : d.value = 0 := by
      rw [← denoted_text, same]
      decide +kernel
    have nonneg : ¬ d.coefficient < 0 := by
      rw [← d.value_neg_iff, zero]
      exact lt_irrefl 0
    obtain ⟨-, spelled⟩ := d.text_eq_signed
    rw [Operand.signed, if_neg (by simpa using nonneg), same] at spelled
    exact spelling_ne_minus d.numeral _ spelled.symm

end Decimal

end Calculator
