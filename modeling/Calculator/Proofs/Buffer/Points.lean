import Calculator.Proofs.Buffer.SignKey
import Mathlib.Data.List.DropRight

/-! # Points in a text

A run is a part of a text in which all characters can stand in a numeral. `OnePoint` says that no run has
two points, `PrecededBy` says what may stand directly in front of a character; both are decided where
two parts of a text meet. The sign key joins runs in one case only: a negative operand loses its
parentheses and its sign, and a run ends directly in front of it.
-/

namespace Calculator

open Operand (isNumeralCharacter)

namespace Buffer

variable {text front back digits : Text}

/-- The run at the end of a text is a part of it. -/
theorem currentOperand_suffix (text : Text) : currentOperand text <:+ text :=
  List.rtakeWhile_suffix _ text

theorem isNumeralCharacter_of_mem_currentOperand {c : Char} (member : c ∈ currentOperand text) :
    isNumeralCharacter c = true := List.mem_rtakeWhile_imp (p := isNumeralCharacter) member

/-- No run at the end of a text is longer. -/
theorem suffix_currentOperand {run : Text} (atEnd : run <:+ text)
    (numeral : ∀ c ∈ run, isNumeralCharacter c = true) : run <:+ currentOperand text := by
  obtain ⟨before, rfl⟩ := atEnd
  have reversed : ∀ c ∈ run.reverse, isNumeralCharacter c = true := by simpa using numeral
  have longest : currentOperand (before ++ run) =
      (before.reverse.takeWhile isNumeralCharacter).reverse ++ run := by
    change ((before ++ run).reverse.takeWhile isNumeralCharacter).reverse = _
    rw [List.reverse_append, List.takeWhile_append_of_pos reversed, List.reverse_append,
      List.reverse_reverse]
  rw [longest]
  exact List.suffix_append _ _

/-- Behind another character there is no run yet. -/
theorem currentOperand_eq_nil (apart : text.getLast?.any isNumeralCharacter = false) :
    currentOperand text = [] := by
  rcases List.eq_nil_or_concat text with rfl | ⟨before, c, rfl⟩
  · rfl
  · rw [List.concat_eq_append] at apart ⊢
    have other : isNumeralCharacter c = false := by simpa using apart
    change ((before ++ [c]).reverse.takeWhile isNumeralCharacter).reverse = []
    simp [other]

/-- A run without a point ends with a digit. -/
theorem isDigit_of_currentOperand (nonempty : currentOperand text ≠ [])
    (noPoint : '.' ∉ currentOperand text) : text.getLast?.any Char.isDigit = true := by
  obtain ⟨before, split⟩ := currentOperand_suffix text
  have member := List.getLast_mem nonempty
  have character := isNumeralCharacter_of_mem_currentOperand member
  rw [isNumeralCharacter, Bool.or_eq_true, beq_iff_eq] at character
  have digit := character.resolve_right fun point => noPoint (point ▸ member)
  rw [← split, List.getLast?_append_of_ne_nil _ nonempty, List.getLast?_eq_some_getLast nonempty]
  exact digit

/-- No run of the text has two points. -/
def OnePoint (text : Text) : Prop :=
  ∀ run, run <:+: text → (∀ c ∈ run, isNumeralCharacter c = true) → run.count '.' ≤ 1

theorem OnePoint.part (one : OnePoint text) (inside : front <:+: text) : OnePoint front :=
  fun run part => one run (part.trans inside)

theorem onePoint_of_count_le (few : text.count '.' ≤ 1) : OnePoint text :=
  fun _ part _ => (part.sublist.count_le '.').trans few

theorem onePoint_nil : OnePoint [] := onePoint_of_count_le (by simp)

theorem OnePoint.count_currentOperand (one : OnePoint text) : (currentOperand text).count '.' ≤ 1 :=
  one _ (currentOperand_suffix text).isInfix fun _ => isNumeralCharacter_of_mem_currentOperand

/-- Behind a run stands a run: together they have one point. -/
theorem onePoint_append_iff (numeral : ∀ c ∈ back, isNumeralCharacter c = true) :
    OnePoint (front ++ back) ↔
      OnePoint front ∧ (currentOperand front).count '.' + back.count '.' ≤ 1 := by
  constructor
  · intro one
    refine ⟨one.part (List.prefix_append front back).isInfix, ?_⟩
    obtain ⟨before, split⟩ := currentOperand_suffix front
    have joined : currentOperand front ++ back <:+: front ++ back :=
      ⟨before, [], by rw [List.append_nil, ← List.append_assoc, split]⟩
    rw [← List.count_append]
    refine one _ joined fun c member => ?_
    exact (List.mem_append.mp member).elim isNumeralCharacter_of_mem_currentOperand (numeral c)
  · rintro ⟨one, few⟩ run part inRun
    rcases List.infix_append_iff.mp part with inFront | inBack | ⟨left, right, rfl, atEnd, atStart⟩
    · exact one run inFront inRun
    · have points := inBack.sublist.count_le '.'
      omega
    · have leftRun : ∀ c ∈ left, isNumeralCharacter c = true := fun c member =>
        inRun c (List.mem_append_left _ member)
      have leftPoints := (suffix_currentOperand atEnd leftRun).sublist.count_le '.'
      have rightPoints := atStart.sublist.count_le '.'
      rw [List.count_append]
      omega

/-- A character that belongs to no run keeps runs apart. -/
theorem onePoint_append_cons {c : Char} (other : isNumeralCharacter c = false)
    (one : OnePoint front) (oneBack : OnePoint back) : OnePoint (front ++ c :: back) := by
  intro run part inRun
  rcases List.infix_append_iff.mp part with inFront | inBack | ⟨left, right, rfl, atEnd, atStart⟩
  · exact one run inFront inRun
  · rcases List.infix_cons_iff.mp inBack with atStart | inBack
    · cases run with
      | nil => simp
      | cons first rest =>
        obtain ⟨rfl, -⟩ := (List.cons_prefix_cons.mp atStart)
        have character := inRun first (List.mem_cons_self ..)
        rw [other] at character
        cases character
    · exact oneBack run inBack inRun
  · cases right with
    | nil =>
      rw [List.append_nil] at inRun ⊢
      exact one left atEnd.isInfix inRun
    | cons first rest =>
      obtain ⟨rfl, -⟩ := (List.cons_prefix_cons.mp atStart)
      have character := inRun first (List.mem_append_right _ (List.mem_cons_self ..))
      rw [other] at character
      cases character

theorem onePoint_concat {c : Char} (other : isNumeralCharacter c = false) (one : OnePoint text) :
    OnePoint (text ++ [c]) :=
  onePoint_append_cons other one (onePoint_of_count_le (by simp))

/-- Directly in front of every `c` the text has something that satisfies `holds`. -/
def PrecededBy (c : Char) (holds : Option Char → Prop) (text : Text) : Prop :=
  ∀ front back, text = front ++ c :: back → holds front.getLast?

section PrecededBy

variable {c : Char} {holds : Option Char → Prop}

theorem precededBy_nil : PrecededBy c holds [] := by simp [PrecededBy]

theorem PrecededBy.part (preceded : PrecededBy c holds text) (part : front <+: text) :
    PrecededBy c holds front := by
  obtain ⟨rest, rfl⟩ := part
  rintro inner back rfl
  exact preceded inner (back ++ rest) (by simp)

theorem PrecededBy.append (preceded : PrecededBy c holds front)
    (meets : ∀ inner rest, back = inner ++ c :: rest → holds (inner.getLast?.or front.getLast?)) :
    PrecededBy c holds (front ++ back) := by
  intro before rest split
  rcases List.append_eq_append_iff.mp split with ⟨inner, rfl, inBack⟩ | ⟨inner, rfl, inFront⟩
  · rw [List.getLast?_append]
    exact meets inner rest inBack
  · cases inner with
    | nil => simpa using meets [] rest inFront.symm
    | cons first inner =>
      obtain ⟨rfl, -⟩ := List.cons.inj inFront
      exact preceded before inner rfl

/-- Nothing has to be checked behind a text for a character that is not added. -/
theorem PrecededBy.append_of_notMem (preceded : PrecededBy c holds front) (none : c ∉ back) :
    PrecededBy c holds (front ++ back) := by
  refine preceded.append ?_
  rintro inner rest rfl
  exact absurd (by simp) none

theorem PrecededBy.concat (preceded : PrecededBy c holds front) (here : holds front.getLast?) :
    PrecededBy c holds (front ++ [c]) := by
  refine preceded.append fun inner rest split => ?_
  obtain rfl : inner = [] := by
    have lengths := congrArg List.length split
    simp only [List.length_append, List.length_cons, List.length_nil] at lengths
    exact List.eq_nil_of_length_eq_zero (by omega)
  exact here

/-- A character can be dropped at the start if it is no better than the start itself. -/
theorem PrecededBy.tail {first : Char} (preceded : PrecededBy c holds (first :: text))
    (start : holds (some first) → holds none) : PrecededBy c holds text := by
  rintro inner back rfl
  have here := preceded (first :: inner) back rfl
  rw [List.getLast?_cons] at here
  cases last : inner.getLast? with
  | none =>
    rw [last] at here
    exact start here
  | some other =>
    rw [last] at here
    exact here

end PrecededBy

/-- In front of every point stands a digit. -/
def PointsFollowDigits : Text → Prop := PrecededBy '.' fun left => left.any Char.isDigit = true

/-- No numeral ends directly in front of an opening parenthesis. -/
def GroupsStandApart : Text → Prop := PrecededBy '(' fun left => left.any isNumeralCharacter = false

section Unsigned

variable {before : Text} (unsigned : Operand.isUnsigned digits = true)
include unsigned

theorem count_point_of_isUnsigned : digits.count '.' ≤ 1 := by
  obtain ⟨numeral, spelled⟩ := Operand.isUnsigned_iff.mp unsigned
  have whole : numeral.whole.count '.' = 0 := List.count_eq_zero_of_not_mem fun member =>
    absurd (numeral.whole_digits _ member) (by decide)
  have fraction : numeral.fraction.count '.' = 0 := List.count_eq_zero_of_not_mem fun member =>
    absurd (numeral.fraction_digits _ member) (by decide)
  rcases spelled with rfl | ⟨integral, rfl⟩
  · rw [Literal.spelling]
    split <;> simp [whole, fraction]
  · simp [Literal.spelling, integral, whole]

/-- The point of an unsigned numeral stands behind a digit. -/
theorem pointsFollowDigits_of_isUnsigned : PointsFollowDigits digits := by
  obtain ⟨numeral, spelled⟩ := Operand.isUnsigned_iff.mp unsigned
  have noPointWhole : '.' ∉ numeral.whole := fun member =>
    absurd (numeral.whole_digits _ member) (by decide)
  have noPointFraction : '.' ∉ numeral.fraction := fun member =>
    absurd (numeral.fraction_digits _ member) (by decide)
  have whole : PointsFollowDigits numeral.whole := precededBy_nil.append_of_notMem noPointWhole
  have point : PointsFollowDigits (numeral.whole ++ ['.']) := by
    apply whole.concat
    rw [List.getLast?_eq_some_getLast numeral.whole_ne_nil]
    exact numeral.whole_digits _ (List.getLast_mem _)
  rcases spelled with rfl | ⟨integral, rfl⟩
  · rw [Literal.spelling]
    split
    · rw [List.append_nil]
      exact whole
    · rw [List.append_cons]
      exact point.append_of_notMem noPointFraction
  · rw [Literal.spelling, if_pos integral, List.append_nil]
    exact point

/-- Behind any text the points of an operand stand behind digits. -/
theorem pointsFollowDigits_append_written (wrapped negative : Bool)
    (preceded : PointsFollowDigits before) :
    PointsFollowDigits (before ++ Operand.written wrapped negative digits) := by
  have inside (front : Text) (points : PointsFollowDigits front) :
      PointsFollowDigits (front ++ digits) := by
    refine points.append fun inner rest split => ?_
    have here := pointsFollowDigits_of_isUnsigned unsigned inner rest split
    cases last : inner.getLast? with
    | none => simp [last] at here
    | some c => simpa [last] using here
  have split : before ++ Operand.written wrapped negative digits =
      before ++ ((if wrapped then ['('] else []) ++ if negative then ['-'] else []) ++ digits ++
        if wrapped then [')'] else [] := by
    cases wrapped <;> cases negative <;> simp [Operand.written, Operand.signed]
  rw [split]
  apply PrecededBy.append_of_notMem
  · apply inside
    apply preceded.append_of_notMem
    cases wrapped <;> cases negative <;> decide
  · cases wrapped <;> decide

/-- Only the parenthesis of an operand itself opens, and it must not stand behind a run. -/
theorem groupsStandApart_append_written {wrapped : Bool} (negative : Bool)
    (apart : GroupsStandApart before)
    (opens : wrapped = true → before.getLast?.any isNumeralCharacter = false) :
    GroupsStandApart (before ++ Operand.written wrapped negative digits) := by
  have noParenthesis : '(' ∉ digits := Operand.notMem_of_isUnsigned unsigned (by decide)
  cases wrapped with
  | false =>
    apply apart.append_of_notMem
    cases negative <;> simp [Operand.written, Operand.signed, noParenthesis]
  | true =>
    have opened : GroupsStandApart (before ++ ['(']) := apart.concat (opens rfl)
    have more : '(' ∉ Operand.signed negative digits ++ [')'] := by
      cases negative <;> simp [Operand.signed, noParenthesis]
    have closed := opened.append_of_notMem more
    rwa [List.append_assoc] at closed

/-- Parentheses keep an operand apart from every run in front of it. -/
theorem onePoint_append_wrapped (negative : Bool) (one : OnePoint before) :
    OnePoint (before ++ Operand.written true negative digits) := by
  have few := count_point_of_isUnsigned unsigned
  refine onePoint_append_cons rfl one (onePoint_concat rfl (onePoint_of_count_le ?_))
  cases negative <;> simpa [Operand.signed] using few

/-- Without parentheses an unsigned numeral continues a run. -/
theorem onePoint_append_unsigned_iff (one : OnePoint before) :
    OnePoint (before ++ digits) ↔ ¬ ('.' ∈ currentOperand before ∧ '.' ∈ digits) := by
  have few := count_point_of_isUnsigned unsigned
  have fewBefore := one.count_currentOperand
  rw [onePoint_append_iff (Operand.isNumeralCharacter_of_isUnsigned unsigned),
    and_iff_right one, ← List.count_pos_iff, ← List.count_pos_iff]
  omega

end Unsigned

/-- The sign key takes the parentheses off an operand with a point, directly behind a run with a
point. -/
def JoinsPoints (text : Text) : Prop :=
  text.head? ≠ some '-' ∧ ∃ before digits, Operand.isUnsigned digits = true ∧
    Operand.withoutFinalBreak text = before ++ Operand.written true true digits ∧
      '.' ∈ currentOperand before ∧ '.' ∈ digits

/-- A group that stands apart joins nothing. -/
theorem not_joinsPoints (apart : GroupsStandApart text) : ¬ JoinsPoints text := by
  rintro ⟨-, before, digits, -, ends, inRun, -⟩
  have noRun := apart.part (isPrefix_withoutFinalBreak text) before _ ends
  rw [currentOperand_eq_nil noRun] at inRun
  cases inRun

section Found

variable {before : Text}

private theorem isUnsigned_eq_false_of_longest (whole : before ++ digits = text)
    (longest : ∀ front back, Operand.AtEnd text front back → before <+: front) {more : Text}
    (nonempty : more ≠ []) (split : before = front ++ more) :
    Operand.isUnsigned (more ++ digits) = false := by
  refine Bool.eq_false_iff.mpr fun longer => ?_
  have operand : Operand.isOperand (more ++ digits) = true :=
    Operand.isOperand_iff.mpr ⟨false, false, _, longer, rfl⟩
  have shorter := longest front (more ++ digits)
    ⟨by rw [← whole, split, List.append_assoc], operand⟩
  have lengths := shorter.length_le
  rw [split, List.length_append] at lengths
  have positive := List.length_pos_of_ne_nil nonempty
  omega

variable (unsigned : Operand.isUnsigned digits = true)
include unsigned

private theorem all_isDigit_of_run (one : OnePoint text) (inside : '.' :: digits <:+: text) :
    digits.all Char.isDigit = true := by
  have numeral := Operand.isNumeralCharacter_of_isUnsigned unsigned
  have few : ('.' :: digits).count '.' ≤ 1 :=
    one _ inside (List.forall_mem_cons.mpr ⟨rfl, numeral⟩)
  have noPoint : '.' ∉ digits := by
    rw [List.count_cons_self] at few
    exact List.count_eq_zero.mp (by omega)
  refine List.all_eq_true.mpr fun c member => ?_
  have character := numeral c member
  have other : c ≠ '.' := fun same => noPoint (same ▸ member)
  simpa [isNumeralCharacter, other] using character

/-- The numeral that is found begins where its run begins, if points stand where they belong. -/
theorem noRun_of_split? (points : PointsFollowDigits text) (one : OnePoint text)
    (found : Operand.split? text = some (before, digits)) :
    before.getLast?.any isNumeralCharacter = false := by
  obtain ⟨whole, -⟩ := Operand.atEnd_of_split? found
  rcases Operand.endsWithSign_or_longest found with sign | longest
  · exact Operand.noRun_of_endsWithSign sign
  rcases List.eq_nil_or_concat before with rfl | ⟨front, c, rfl⟩
  · rfl
  rw [List.concat_eq_append] at whole longest ⊢
  -- Otherwise a longer numeral would have been found: one with `c`, or with the digit in front of it.
  by_contra inRun
  have character : isNumeralCharacter c = true := by simpa using inRun
  rw [isNumeralCharacter, Bool.or_eq_true, beq_iff_eq] at character
  rcases character with digit | rfl
  · have shorter := isUnsigned_eq_false_of_longest whole longest (by simp) rfl
    exact Bool.false_ne_true (shorter.symm.trans (Operand.isUnsigned_cons unsigned digit))
  · have digitBefore := points front digits (by rw [← whole, List.append_assoc]; rfl)
    rcases List.eq_nil_or_concat front with rfl | ⟨inner, other, rfl⟩
    · cases digitBefore
    rw [List.concat_eq_append] at whole longest digitBefore
    have digit : other.isDigit = true := by simpa using digitBefore
    have all := all_isDigit_of_run unsigned one ⟨inner ++ [other], [], by simpa using whole⟩
    have shorter : Operand.isUnsigned ([other, '.'] ++ digits) = false :=
      isUnsigned_eq_false_of_longest whole longest (by simp) (List.append_assoc inner [other] ['.'])
    exact Bool.false_ne_true (shorter.symm.trans (Operand.isUnsigned_cons_point digit all))

end Found

section Negated

variable {negated : Text} (found : negated? text = some negated)
include found

/-- The sign key keeps points apart unless it joins two runs with a point each. -/
theorem onePoint_negated_iff (one : OnePoint text) : OnePoint negated ↔ ¬ JoinsPoints text := by
  rcases negated?_cases found with
    rfl | ⟨noMinus, before, wrapped, negative, digits, unsigned, split, rfl⟩
  · exact iff_of_true (one.part (List.suffix_cons _ _).isInfix) fun joins => joins.1 rfl
  · obtain ⟨whole, -⟩ := Operand.atEnd_of_split? split
    have oneBefore : OnePoint before :=
      one.part ((List.prefix_append _ _).trans (whole ▸ isPrefix_withoutFinalBreak text)).isInfix
    -- The operand that joins runs is the one that is found.
    have same {other digitsOther : Text} (otherUnsigned : Operand.isUnsigned digitsOther = true)
        (ends : Operand.withoutFinalBreak text = other ++ Operand.written true true digitsOther) :
        before = other ∧ wrapped = true ∧ negative = true ∧ digits = digitsOther := by
      rw [ends, Operand.split?_append_written otherUnsigned] at split
      obtain ⟨rfl, form⟩ := Prod.mk.inj (Option.some.inj split)
      obtain ⟨rfl, rfl, rfl⟩ := Operand.written_inj otherUnsigned unsigned form
      exact ⟨rfl, rfl, rfl, rfl⟩
    cases negative with
    | false =>
      refine iff_of_true (onePoint_append_wrapped unsigned true oneBefore) ?_
      rintro ⟨-, other, digitsOther, otherUnsigned, ends, -⟩
      obtain ⟨-, -, positive, -⟩ := same otherUnsigned ends
      cases positive
    | true =>
      refine (onePoint_append_unsigned_iff unsigned oneBefore).trans (not_congr ⟨fun joins => ?_, ?_⟩)
      · obtain rfl : wrapped = true := by
          by_contra bare
          rw [Bool.eq_false_iff.mpr bare] at split
          have sign := Operand.endsWithSign_of_negative unsigned split
          rw [currentOperand_eq_nil (Operand.noRun_of_endsWithSign sign)] at joins
          cases joins.1
        exact ⟨noMinus, before, digits, unsigned, whole.symm, joins⟩
      · rintro ⟨-, other, digitsOther, otherUnsigned, ends, joins⟩
        obtain ⟨rfl, -, -, rfl⟩ := same otherUnsigned ends
        exact joins

/-- The sign key leaves every point behind a digit. -/
theorem pointsFollowDigits_negated (preceded : PointsFollowDigits text) :
    PointsFollowDigits negated := by
  rcases negated?_cases found with rfl | ⟨-, before, wrapped, negative, digits, unsigned, split, rfl⟩
  · exact preceded.tail fun minus => Bool.noConfusion minus
  · obtain ⟨whole, -⟩ := Operand.atEnd_of_split? split
    apply pointsFollowDigits_append_written unsigned
    exact preceded.part ((List.prefix_append _ _).trans (whole ▸ isPrefix_withoutFinalBreak text))

/-- If points stand where they belong, the sign key opens no group directly behind a numeral. -/
theorem groupsStandApart_negated (apart : GroupsStandApart text) (points : PointsFollowDigits text)
    (one : OnePoint text) : GroupsStandApart negated := by
  rcases negated?_cases found with rfl | ⟨-, before, wrapped, negative, digits, unsigned, split, rfl⟩
  · exact apart.tail fun _ => rfl
  · have inside := isPrefix_withoutFinalBreak text
    obtain ⟨whole, -⟩ := Operand.atEnd_of_split? split
    have before : GroupsStandApart before := (apart.part inside).part ⟨_, whole⟩
    apply groupsStandApart_append_written unsigned _ before
    intro positive
    obtain rfl : negative = false := by simpa using positive
    cases wrapped with
    | true => exact apart.part inside _ _ whole.symm
    | false => exact noRun_of_split? unsigned (points.part inside) (one.part inside.isInfix) split

end Negated

end Buffer

end Calculator
