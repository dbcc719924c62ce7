import Calculator.Proofs.Buffer.Operand

/-! # The pattern of the last operand

What the sign key looks for is a pattern: possibly a shortest run of characters up to an operator sign, then a
numeral with or without parentheses, and then the end of the text, up to a line break. Which match is found
depends on the order in which a search with backtracking tries them: starting places from the left, and for
each the ways to match in the order of `Pattern.ways`. The search of the sign key, which needs no backtracking,
finds the same match in every text.
-/

namespace Calculator

/-- Patterns. A run takes as many characters as it can first, a lazy run as few, an option tries its pattern
first, and of two alternatives the left one is tried first. -/
inductive Pattern where
  | one (allowed : Char → Bool)
  | run (allowed : Char → Bool)
  | lazyRun (allowed : Char → Bool)
  | option (pattern : Pattern)
  | sequence (first second : Pattern)
  | either (left right : Pattern)

namespace Pattern

variable {text front back : Text} {allowed : Char → Bool}

/-- Whether a text as a whole has the form of a pattern. -/
def Matches : Pattern → Text → Prop
  | one allowed, text => ∃ c, text = [c] ∧ allowed c = true
  | run allowed, text | lazyRun allowed, text => ∀ c ∈ text, allowed c = true
  | option pattern, text => text = [] ∨ pattern.Matches text
  | sequence first second, text =>
      ∃ front back, text = front ++ back ∧ first.Matches front ∧ second.Matches back
  | either left right, text => left.Matches text ∨ right.Matches text

/-- The runs at the start of a text, each with the rest, the shortest one first. -/
def runs (allowed : Char → Bool) : Text → List (Text × Text)
  | [] => [([], [])]
  | c :: rest =>
      ([], c :: rest) ::
        if allowed c then (runs allowed rest).map fun (first, rest) => (c :: first, rest) else []

/-- The ways to match the start of a text, each with the rest, in the order in which they are tried. -/
def ways : Pattern → Text → List (Text × Text)
  | one _, [] => []
  | one allowed, c :: rest => if allowed c then [([c], rest)] else []
  | run allowed, text => (runs allowed text).reverse
  | lazyRun allowed, text => runs allowed text
  | option pattern, text => pattern.ways text ++ [([], text)]
  | sequence first second, text =>
      (first.ways text).flatMap fun (front, rest) =>
        (second.ways rest).map fun (back, rest) => (front ++ back, rest)
  | either left right, text => left.ways text ++ right.ways text

/-- The runs are all beginnings of the text that have allowed characters only. -/
theorem mem_runs_iff :
    (front, back) ∈ runs allowed text ↔ text = front ++ back ∧ ∀ c ∈ front, allowed c = true := by
  induction text generalizing front with
  | nil => cases front <;> grind [runs]
  | cons c rest ih => cases front <;> grind [runs]

/-- Backtracking finds all matches at the start of a text, and nothing else. -/
theorem mem_ways_iff (pattern : Pattern) :
    (front, back) ∈ pattern.ways text ↔ text = front ++ back ∧ pattern.Matches front := by
  induction pattern generalizing text front back with
  | one allowed =>
    cases text with
    | nil => grind [ways, Matches]
    | cons c rest => grind [ways, Matches]
  | run allowed => rw [ways, List.mem_reverse, mem_runs_iff, Matches]
  | lazyRun allowed => exact mem_runs_iff
  | option pattern ih => grind [ways, Matches]
  | sequence first second ihFirst ihSecond =>
    simp only [ways, List.mem_flatMap, List.mem_map, Prod.exists, ihFirst, ihSecond, Matches]
    constructor
    · rintro ⟨first, rest, ⟨rfl, matchesFirst⟩, second, back, ⟨rfl, matchesSecond⟩, same⟩
      obtain ⟨rfl, rfl⟩ := Prod.mk.inj same
      exact ⟨(List.append_assoc ..).symm, first, second, rfl, matchesFirst, matchesSecond⟩
    · rintro ⟨rfl, first, second, rfl, matchesFirst, matchesSecond⟩
      exact ⟨first, second ++ back, ⟨List.append_assoc .., matchesFirst⟩, second, back,
        ⟨rfl, matchesSecond⟩, rfl⟩
  | either left right ihLeft ihRight =>
    rw [ways, List.mem_append, ihLeft, ihRight, Matches, and_or_left]

end Pattern

namespace Operand

/-- Digits, possibly with a point and any number of digits behind it: `[0-9]+(\.[0-9]*)?`. -/
def unsignedPattern : Pattern :=
  .sequence (.one Char.isDigit) (.sequence (.run Char.isDigit)
    (.option (.sequence (.one (· == '.')) (.run Char.isDigit))))

/-- The same with or without a minus sign. -/
def numeralPattern : Pattern := .sequence (.option (.one (· == '-'))) unsignedPattern

/-- What can be negated: the same in a pair of parentheses or without. -/
def operandPattern : Pattern :=
  .either (.sequence (.one (· == '(')) (.sequence numeralPattern (.one (· == ')')))) numeralPattern

/-- As little as possible up to an operator sign: `.*?[+\-x÷]`. -/
def signPattern : Pattern := .sequence (.lazyRun (· != '\n')) (.one isOperatorSign)

section Language

variable {text : Text}

/-- The pattern of digits, with a point and digits or without, is that of unsigned numerals. -/
theorem matches_unsignedPattern_iff : unsignedPattern.Matches text ↔ isUnsigned text = true := by
  constructor
  · rintro ⟨_, _, rfl, ⟨c, rfl, digit⟩, digits, after, rfl, all, continues⟩
    have whole : ∀ d ∈ c :: digits, d.isDigit = true := List.forall_mem_cons.mpr ⟨digit, all⟩
    change isUnsigned ((c :: digits) ++ after) = true
    rw [isUnsigned, List.dropWhile_append_of_pos whole]
    rcases continues with rfl | ⟨_, fraction, rfl, ⟨point, rfl, isPoint⟩, fractionDigits⟩
    · simpa using digit
    · obtain rfl : point = '.' := by simpa using isPoint
      replace fractionDigits : ∀ d ∈ fraction, d.isDigit = true := fractionDigits
      have noDigit : '.'.isDigit = false := rfl
      simpa [noDigit, digit] using fractionDigits
  · intro unsigned
    obtain ⟨numeral, spelled⟩ := isUnsigned_iff.mp unsigned
    obtain ⟨c, digits, whole⟩ := List.exists_cons_of_ne_nil numeral.whole_ne_nil
    obtain ⟨digit, all⟩ := List.forall_mem_cons.mp (whole ▸ numeral.whole_digits)
    have continued (after : Text) (split : text = numeral.whole ++ after)
        (continues :
          after = [] ∨ ∃ fraction, after = '.' :: fraction ∧ ∀ d ∈ fraction, d.isDigit = true) :
        unsignedPattern.Matches text := by
      refine ⟨[c], digits ++ after, by rw [split, whole]; rfl, ⟨c, rfl, digit⟩, digits, after, rfl,
        all, ?_⟩
      refine continues.imp_right ?_
      rintro ⟨fraction, rfl, fractionDigits⟩
      exact ⟨['.'], fraction, rfl, ⟨'.', rfl, rfl⟩, fractionDigits⟩
    rcases spelled with rfl | ⟨integral, rfl⟩
    · refine continued _ rfl ?_
      by_cases integral : numeral.fraction = []
      · exact .inl (if_pos integral)
      · exact .inr ⟨_, if_neg integral, numeral.fraction_digits⟩
    · refine continued ['.'] ?_ (.inr ⟨[], rfl, by simp⟩)
      rw [Literal.spelling, if_pos integral, List.append_nil]

/-- With a minus sign that may be there it is the pattern of numerals. -/
theorem matches_numeralPattern_iff :
    numeralPattern.Matches text ↔
      ∃ negative digits, isUnsigned digits = true ∧ text = signed negative digits := by
  constructor
  · rintro ⟨_, digits, rfl, rfl | ⟨sign, rfl, minus⟩, unsigned⟩
    · exact ⟨false, digits, matches_unsignedPattern_iff.mp unsigned, rfl⟩
    · obtain rfl : sign = '-' := by simpa using minus
      exact ⟨true, digits, matches_unsignedPattern_iff.mp unsigned, rfl⟩
  · rintro ⟨negative, digits, unsigned, rfl⟩
    replace unsigned := matches_unsignedPattern_iff.mpr unsigned
    cases negative with
    | false => exact ⟨[], digits, rfl, .inl rfl, unsigned⟩
    | true => exact ⟨['-'], digits, rfl, .inr ⟨'-', rfl, rfl⟩, unsigned⟩

/-- The pattern describes what can be negated. -/
theorem matches_operandPattern_iff : operandPattern.Matches text ↔ isOperand text = true := by
  rw [isOperand, Bool.or_eq_true, isNumeral_iff, isWrapped_iff, ← matches_numeralPattern_iff, or_comm]
  refine or_congr ?_ Iff.rfl
  constructor
  · rintro ⟨_, _, rfl, ⟨opening, rfl, opens⟩, inside, _, rfl, numeral, closing, rfl, closes⟩
    obtain rfl : opening = '(' := by simpa using opens
    obtain rfl : closing = ')' := by simpa using closes
    obtain ⟨negative, digits, unsigned, rfl⟩ := matches_numeralPattern_iff.mp numeral
    exact ⟨negative, digits, unsigned, rfl⟩
  · rintro ⟨negative, digits, unsigned, rfl⟩
    exact ⟨['('], _, rfl, ⟨'(', rfl, rfl⟩, _, [')'], rfl,
      matches_numeralPattern_iff.mpr ⟨negative, digits, unsigned, rfl⟩, ')', rfl, rfl⟩

end Language

/-! ### The search -/

/-- The operands that a text starts with and that nothing but a line break follows, in the order in which they
are found. -/
def operandsAtEnd (text : Text) : List Text :=
  (operandPattern.ways text).filterMap fun (operand, behind) =>
    if behind = [] ∨ behind = ['\n'] then some operand else none

/-- The matches at the start of a text, in the order in which they are found: an operand with what stands in
front of it. -/
def matchesAtStart (text : Text) : List (Text × Text) :=
  (signPattern.option.ways text).flatMap fun (before, rest) =>
    (operandsAtEnd rest).map fun operand => (before, operand)

/-- The first match that is found when the starting places are tried from the left. -/
def search : Text → Option (Text × Text)
  | [] => (matchesAtStart []).head?
  | c :: rest => (matchesAtStart (c :: rest)).head?.or
      ((search rest).map fun (before, operand) => (c :: before, operand))

section Search

variable {text : Text} {c : Char}

theorem withoutFinalBreak_cons (c : Char) {text : Text} (nonempty : text ≠ []) :
    withoutFinalBreak (c :: text) = c :: withoutFinalBreak text := by
  rw [withoutFinalBreak, withoutFinalBreak, List.getLast?_cons_of_ne_nil nonempty,
    List.dropLast_cons_of_ne_nil nonempty]
  split <;> rfl

private theorem withoutFinalBreak_of_isOperand (operand : isOperand text = true) :
    withoutFinalBreak text = text ∧ withoutFinalBreak (text ++ ['\n']) = text := by
  have noBreak : text.getLast? ≠ some '\n' := by
    obtain ⟨wrapped, negative, digits, unsigned, rfl⟩ := isOperand_iff.mp operand
    cases wrapped with
    | true => simp [getLast?_written]
    | false =>
      obtain ⟨c, last, character⟩ := exists_getLast?_signed unsigned negative
      rintro same
      obtain rfl : c = '\n' := Option.some.inj (last.symm.trans same)
      exact absurd character (by decide)
  exact ⟨if_neg noBreak, by simp [withoutFinalBreak]⟩

/-- The pattern has to match up to the end of the text or up to a final line break. -/
theorem mem_operandsAtEnd_iff {operand : Text} :
    operand ∈ operandsAtEnd text ↔ isOperand operand = true ∧ operand = withoutFinalBreak text := by
  simp only [operandsAtEnd, List.mem_filterMap, Prod.exists, Pattern.mem_ways_iff,
    matches_operandPattern_iff]
  constructor
  · rintro ⟨front, behind, ⟨rfl, isOperand⟩, found⟩
    obtain ⟨alone, withBreak⟩ := withoutFinalBreak_of_isOperand isOperand
    split_ifs at found with atEnd
    obtain rfl := Option.some.inj found
    rcases atEnd with rfl | rfl
    · exact ⟨isOperand, by rw [List.append_nil, alone]⟩
    · exact ⟨isOperand, withBreak.symm⟩
  · rintro ⟨isOperand, rfl⟩
    unfold withoutFinalBreak at isOperand ⊢
    split_ifs at isOperand ⊢ with last
    · obtain ⟨front, rfl⟩ := List.getLast?_eq_some_iff.mp last
      rw [List.dropLast_concat] at isOperand ⊢
      exact ⟨front, ['\n'], ⟨rfl, isOperand⟩, rfl⟩
    · exact ⟨text, [], ⟨(List.append_nil _).symm, isOperand⟩, rfl⟩

/-- At a given place only one operand can be found. -/
theorem head?_operandsAtEnd (text : Text) :
    (operandsAtEnd text).head? =
      if isOperand (withoutFinalBreak text) then some (withoutFinalBreak text) else none := by
  cases operands : operandsAtEnd text with
  | nil =>
    rw [if_neg]
    · rfl
    · intro isOperand
      have member := mem_operandsAtEnd_iff.mpr ⟨isOperand, rfl⟩
      rw [operands] at member
      cases member
  | cons operand more =>
    obtain ⟨isOperand, rfl⟩ := mem_operandsAtEnd_iff.mp (operands ▸ List.mem_cons_self ..)
    rw [if_pos isOperand]
    rfl

/-- The operand that takes up all of the text behind a place. -/
def operandBehind? : Text × Text → Option (Text × Text)
  | (before, rest) => if isOperand (withoutFinalBreak rest) then some (before, withoutFinalBreak rest) else none

theorem operandBehind?_cons (c : Char) (before rest : Text) :
    operandBehind? (c :: before, rest) =
      (operandBehind? (before, rest)).map fun (before, operand) => (c :: before, operand) := by
  rw [operandBehind?, operandBehind?]
  split <;> rfl

/-- Of the matches at the start of a text the first one is found behind the first place that an operand
follows. -/
theorem head?_matchesAtStart (text : Text) :
    (matchesAtStart text).head? = (signPattern.option.ways text).findSome? operandBehind? := by
  rw [matchesAtStart, List.head?_flatMap]
  congr 1
  funext (before, rest)
  rw [List.head?_map, head?_operandsAtEnd, operandBehind?]
  split <;> rfl

private theorem ways_signPattern_cons (c : Char) (text : Text) :
    signPattern.ways (c :: text) =
      (if isOperatorSign c then [([c], text)] else []) ++
        if c = '\n' then [] else (signPattern.ways text).map fun (before, rest) => (c :: before, rest) := by
  -- The nearest operator sign is tried first, and none on a later line.
  simp only [signPattern, Pattern.ways, Pattern.runs, List.flatMap_cons]
  by_cases lineBreak : c = '\n'
  · simp [lineBreak]
  · simp [lineBreak, List.flatMap_map, List.map_flatMap]
    rfl

private theorem splitAtSign?_withoutFinalBreak_cons (c : Char) (text : Text) :
    splitAtSign? (withoutFinalBreak (c :: text)) =
      if isOperatorSign c && isOperand (withoutFinalBreak text) then some ([c], withoutFinalBreak text)
      else if c = '\n' then none
      else (splitAtSign? (withoutFinalBreak text)).map fun (before, operand) => (c :: before, operand) := by
  by_cases nonempty : text = []
  · subst nonempty
    by_cases lineBreak : c = '\n'
    · rw [lineBreak]
      rfl
    · have alone : withoutFinalBreak [c] = [c] := if_neg (by simpa using lineBreak)
      rw [alone, splitAtSign?]
      rfl
  · rw [withoutFinalBreak_cons c nonempty, splitAtSign?]

/-- To try the operator signs in the order of backtracking is to search for the sign of the operand. -/
theorem findSome?_ways_signPattern (text : Text) :
    (signPattern.ways text).findSome? operandBehind? = splitAtSign? (withoutFinalBreak text) := by
  induction text with
  | nil => rfl
  | cons c text ih =>
    have nearest : (if isOperatorSign c then [([c], text)] else []).findSome? operandBehind? =
        if isOperatorSign c && isOperand (withoutFinalBreak text) then some ([c], withoutFinalBreak text)
        else none := by
      cases isOperatorSign c <;> simp [operandBehind?]
    have later : ((signPattern.ways text).map fun (before, rest) => (c :: before, rest)).findSome?
          operandBehind? =
        (splitAtSign? (withoutFinalBreak text)).map fun (before, operand) => (c :: before, operand) := by
      rw [List.findSome?_map, ← ih, List.map_findSome?]
      congr 1
      funext (before, rest)
      exact operandBehind?_cons c before rest
    rw [ways_signPattern_cons, List.findSome?_append, nearest, splitAtSign?_withoutFinalBreak_cons]
    split
    · rfl
    · rw [Option.none_or]
      split
      · rfl
      · exact later

private theorem split?_cons (c : Char) (text : Text) :
    split? (c :: text) =
      ((splitAtSign? (c :: text)).or (if isOperand (c :: text) then some ([], c :: text) else none)).or
        ((split? text).map fun (before, operand) => (c :: before, operand)) := by
  rw [split?]
  cases splitAtSign? (c :: text) with
  | some found => rfl
  | none =>
    simp only [Option.none_or]
    split <;> rfl

/-- The search for the pattern and the search of the sign key find the same operand in every text. -/
theorem search_eq (text : Text) : search text = split? (withoutFinalBreak text) := by
  have atStart (text : Text) : (matchesAtStart text).head? =
      (splitAtSign? (withoutFinalBreak text)).or (operandBehind? ([], text)) := by
    rw [head?_matchesAtStart, Pattern.ways, List.findSome?_append, findSome?_ways_signPattern]
    simp
  induction text with
  | nil => rfl
  | cons c text ih =>
    rw [search, atStart, ih, operandBehind?]
    by_cases nonempty : text = []
    · subst nonempty
      by_cases lineBreak : c = '\n'
      · rw [lineBreak]
        rfl
      · have alone : withoutFinalBreak [c] = [c] := if_neg (by simpa using lineBreak)
        rw [alone, split?_cons]
        rfl
    · rw [withoutFinalBreak_cons c nonempty, split?_cons]

end Search

end Operand

end Calculator
