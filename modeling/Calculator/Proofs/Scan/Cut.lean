import Calculator.Proofs.Scan.Digits

/-! # Cutting a text where a token starts

Whatever was typed, a scan falls apart in front of each of its spans, and at every place that lies inside
none of them. So the spans of a text lie in it one behind the other, and a token at its end can be taken
off. A number at the end is taken off with its sign if the scanner took one.
-/

namespace Calculator

namespace Scan

variable {previous : Option Token} {start : Nat} {text first front back : Text} {c : Char}
  {token : Token} {earlier later : List Span} {span last : Span}

/-- A symbol is neither a digit nor a number. -/
theorem noNumber_of_symbol? (known : symbol? c = some token) :
    c.isDigit = false ∧ token.isNumber = false := by
  unfold symbol? at known
  split_ifs at known with opens closes operator
  · cases known
    exact ⟨by rw [opens]; rfl, rfl⟩
  · cases known
    exact ⟨by rw [closes]; rfl, rfl⟩
  · cases known
    have none : operatorCharacters.any Char.isDigit = false := rfl
    rw [List.any_eq_false] at none
    exact ⟨by simpa using none c operator, rfl⟩

private theorem Reads.startsWithDigit_rest (reads : Reads previous back first token)
    (digit : first.getLast?.any Char.isDigit = true) : startsWithDigit back = false := by
  cases reads with
  | number numeral ends => exact Numeral.startsWithDigit_behind ends
  | negative numeral ends => exact Numeral.startsWithDigit_behind ends
  | symbol known =>
    exact absurd ((noNumber_of_symbol? known).1.symm.trans digit) Bool.false_ne_true
  | word known =>
    obtain ⟨c, last, isDigit⟩ := (Option.any_eq_true ..).mp digit
    have noDigit := words_noDigit _ known c (List.mem_of_getLast? last)
    exact absurd (noDigit.symm.trans isDigit) Bool.false_ne_true

/-- What is read as a number is a numeral, with a sign where one is allowed. -/
theorem Reads.exists_signed (reads : Reads previous back first token)
    (number : token.isNumber = true) :
    ∃ negative digits, Operand.isUnsigned digits = true ∧ first = Operand.signed negative digits ∧
      token = Operand.token negative digits ∧ (negative = true → signAllowed previous = true) := by
  have unsigned (numeral : Numeral) : Operand.isUnsigned numeral.spelling = true :=
    Operand.isUnsigned_iff.mpr ⟨numeral, .inl rfl⟩
  cases reads with
  | number numeral =>
    refine ⟨false, numeral.spelling, unsigned numeral, rfl, ?_, nofun⟩
    rw [Operand.token, if_neg Bool.false_ne_true, numeral.atStart_spelling]
  | negative numeral _ allowed =>
    refine ⟨true, numeral.spelling, unsigned numeral, rfl, ?_, fun _ => allowed⟩
    rw [Operand.token, if_pos rfl, numeral.atStart_spelling]
  | symbol known =>
    exact absurd ((noNumber_of_symbol? known).2.symm.trans number) Bool.false_ne_true
  | word known => exact absurd ((words_noNumber _ known).symm.trans number) Bool.false_ne_true

/-- In front of a digit a scan does not come to a place behind another one. -/
theorem Cut.noDigit (cut : Cut previous front back) (digit : startsWithDigit back = true) :
    front.getLast?.any Char.isDigit = false := by
  induction cut with
  | here => rfl
  | @skip previous c front back skipped _ ih =>
    cases front with
    | nil => exact (unknown_of_skipped skipped).1
    | cons => exact ih digit
  | @read previous first front back token _ read _ ih =>
    by_cases none : front = []
    · subst none
      refine Bool.eq_false_iff.mpr fun last => ?_
      rw [List.append_nil] at last
      exact absurd (((reads_of_lexeme? read).startsWithDigit_rest last).symm.trans digit)
        Bool.false_ne_true
    · rw [List.getLast?_append_of_ne_nil _ none]
      exact ih digit

/-! ### The cut in front of a span -/

/-- A text is cut where a span starts: the scan comes to this place, with the spans `earlier`, and goes on
with the span. -/
structure CutAt (previous : Option Token) (start : Nat) (earlier : List Span) (span : Span)
    (front back : Text) : Prop where
  steps : Cut previous front back
  spans : spansFrom previous start front = earlier
  place : span.start = start + front.length
  read : lexeme? (lastFrom Span.token previous earlier) back = some (span.token, span.length)

/-- A text can be cut at each of its spans. -/
theorem exists_cut (split : spansFrom previous start text = earlier ++ span :: later) :
    ∃ front back, text = front ++ back ∧ CutAt previous start earlier span front back := by
  fun_induction spansFrom previous start text generalizing earlier with
  | case1 => simp at split
  | case2 previous start c rest skipped ih =>
    obtain ⟨front, back, rfl, cut, spans, place, read⟩ := ih split
    have alone : lexeme? previous (c :: front) = none := lexeme?_of_append_none skipped
    refine ⟨c :: front, back, rfl, .skip skipped cut, ?_, ?_, read⟩
    · rw [spansFrom, alone]
      exact spans
    · rw [place, List.length_cons, Nat.add_right_comm, Nat.add_assoc]
  | case3 previous start c rest token length read ih =>
    obtain ⟨first, parts, rfl, nonempty⟩ := exists_append_drop_of_lexeme? read
    generalize rest.drop (first.length - 1) = behind at ih parts split
    rw [parts] at read ⊢
    cases earlier with
    | nil =>
      obtain ⟨rfl, -⟩ := List.cons.inj split
      exact ⟨[], first ++ behind, rfl, .here, by rw [spansFrom], rfl, read⟩
    | cons head earlier =>
      obtain ⟨rfl, further⟩ := List.cons.inj split
      obtain ⟨front, back, rfl, cut, spans, place, readBack⟩ := ih further
      have alone : lexeme? previous (first ++ front) = some (token, first.length) := by
        rw [← List.append_assoc] at read
        exact lexeme?_of_append (by simp [nonempty]) read (by simp)
      refine ⟨first ++ front, back, (List.append_assoc ..).symm, .read nonempty read cut, ?_, ?_, ?_⟩
      · rw [spansFrom_of_lexeme? nonempty alone, spans]
      · rw [place, List.length_append, Nat.add_assoc]
      · rw [lastFrom_cons]
        exact readBack

/-- What stands behind the cut starts with the characters of the span. -/
theorem CutAt.exists_reads (cut : CutAt previous start earlier span front back) :
    ∃ first rest, back = first ++ rest ∧ span.length = first.length ∧
      Reads (lastFrom Span.token previous earlier) rest first span.token :=
  exists_reads_of_lexeme? cut.read

/-- A span is not empty and lies in the text, behind all earlier ones. -/
theorem bounds_of_split (split : spansFrom previous start text = earlier ++ span :: later) :
    0 < span.length ∧ span.stop ≤ start + text.length ∧
      ∀ before ∈ earlier, before.stop ≤ span.start := by
  have inside {span : Span} {earlier later : List Span} {text : Text}
      (split : spansFrom previous start text = earlier ++ span :: later) :
      0 < span.length ∧ span.stop ≤ start + text.length := by
    obtain ⟨front, back, rfl, cut⟩ := exists_cut split
    obtain ⟨first, rest, rfl, length, reads⟩ := cut.exists_reads
    have some := List.length_pos_iff.mpr reads.ne_nil
    have place := cut.place
    simp only [Span.stop, List.length_append]
    omega
  refine ⟨(inside split).1, (inside split).2, fun before member => ?_⟩
  obtain ⟨front, back, rfl, cut⟩ := exists_cut split
  obtain ⟨first, rest, rfl⟩ := List.append_of_mem member
  rw [cut.place]
  exact (inside cut.spans).2

/-- A scan comes to every place that lies inside none of its spans. -/
theorem cut_of_outside (outside : ∀ span ∈ spansFrom previous start (front ++ back),
    start + front.length ≤ span.start ∨ span.stop ≤ start + front.length) :
    Cut previous front back := by
  generalize whole : front ++ back = text at outside
  fun_induction spansFrom previous start text generalizing front with
  | case1 =>
    obtain ⟨rfl, rfl⟩ := List.append_eq_nil_iff.mp whole
    exact .here
  | case2 previous start c rest skipped ih =>
    cases front with
    | nil => exact .here
    | cons d front =>
      obtain ⟨rfl, rfl⟩ := List.cons.inj whole
      refine .skip skipped (ih rfl fun span member => ?_)
      have apart := outside span member
      rw [List.length_cons] at apart
      omega
  | case3 previous start c rest token length read ih =>
    obtain ⟨first, parts, rfl, nonempty⟩ := exists_append_drop_of_lexeme? read
    generalize rest.drop (first.length - 1) = behind at ih parts outside
    rw [parts] at read whole
    by_cases none : front = []
    · rw [none]
      exact .here
    · have positive := List.length_pos_iff.mpr none
      obtain ⟨here, further⟩ := List.forall_mem_cons.mp outside
      have fits : first.length ≤ front.length := by
        simp only [Span.stop] at here
        omega
      obtain ⟨later, rfl⟩ : first <+: front :=
        List.prefix_of_prefix_length_le ⟨behind, rfl⟩ ⟨back, whole⟩ fits
      rw [List.append_assoc] at whole
      obtain rfl := List.append_cancel_left whole
      refine .read nonempty read (ih rfl fun span member => ?_)
      have apart := further span member
      rw [List.length_append] at apart
      omega

end Scan

/-- A span of a text is not empty and lies in the text, behind all earlier ones. -/
theorem bounds_of_scan {text : Text} {earlier later : List Span} {span : Span}
    (spans : scan text = earlier ++ span :: later) :
    0 < span.length ∧ span.stop ≤ text.length ∧ ∀ before ∈ earlier, before.stop ≤ span.start := by
  obtain ⟨positive, inside, order⟩ := Scan.bounds_of_split spans
  exact ⟨positive, by rwa [Nat.zero_add] at inside, order⟩

/-- A text is cut where one of its spans starts: the text in front has the spans in front, and the scan goes
on with the span. -/
theorem exists_cut_of_scan {text : Text} {earlier later : List Span} {span : Span}
    (spans : scan text = earlier ++ span :: later) :
    ∃ front back, text = front ++ back ∧ scan front = earlier ∧ span.start = front.length ∧
      Scan.Cut none front back ∧ Scan.lexeme? (lastToken? front) back = some (span.token, span.length) := by
  obtain ⟨front, back, rfl, cut⟩ := Scan.exists_cut spans
  have inFront : scan front = earlier := cut.spans
  refine ⟨front, back, rfl, inFront, cut.place.trans (Nat.zero_add _), cut.steps, ?_⟩
  have read := cut.read
  rwa [Scan.lastFrom_none, ← inFront, ← List.getLast?_map] at read

/-- Of a text that ends with a token the last step reads all that is left. -/
theorem exists_reads_of_last {text : Text} {earlier : List Span} {last : Span}
    (spans : scan text = earlier ++ [last]) (stop : last.stop = text.length) :
    ∃ front back token, text = front ++ back ∧ last = ⟨token, front.length, back.length⟩ ∧
      scan front = earlier ∧ Scan.Cut none front back ∧
        Scan.Reads (lastToken? front) [] back token := by
  obtain ⟨front, back, rfl, inFront, place, cut, read⟩ := exists_cut_of_scan spans
  obtain ⟨token, start, length⟩ := last
  obtain rfl : start = front.length := place
  obtain rfl : length = back.length := by
    rw [Span.stop, List.length_append] at stop
    exact Nat.add_left_cancel stop
  replace read : Scan.lexeme? (lastToken? front) (back ++ []) = some (token, back.length) := by
    rw [List.append_nil]
    exact read
  exact ⟨front, back, token, rfl, rfl, inFront, cut, Scan.reads_of_lexeme? read⟩

/-- A number at the end of a text is a numeral, with a sign where one is allowed. -/
theorem exists_signed_of_last {text : Text} {earlier : List Span} {last : Span}
    (spans : scan text = earlier ++ [last]) (stop : last.stop = text.length)
    (number : last.token.isNumber = true) :
    ∃ front negative digits, Operand.isUnsigned digits = true ∧
      text = front ++ Operand.signed negative digits ∧
        last = ⟨Operand.token negative digits, front.length, (Operand.signed negative digits).length⟩ ∧
          scan front = earlier ∧ Scan.Cut none front (Operand.signed negative digits) ∧
            (negative = true → Scan.signAllowed (lastToken? front) = true) := by
  obtain ⟨front, back, token, rfl, rfl, inFront, cut, reads⟩ := exists_reads_of_last spans stop
  obtain ⟨negative, digits, unsigned, rfl, rfl, allowed⟩ := reads.exists_signed number
  exact ⟨front, negative, digits, unsigned, rfl, rfl, inFront, cut, allowed⟩

/-- A number ends a text: it is the last token, and no character stands behind it. -/
structure EndsText (text : Text) (span : Span) : Prop where
  last : (scan text).getLast? = some span
  number : span.token.isNumber = true
  stop : span.stop = text.length

/-- A number that ends a text is a numeral, with a sign where one is allowed and otherwise behind no
digit. -/
theorem EndsText.exists_signed {text : Text} {span : Span} (ends : EndsText text span) :
    ∃ front negative digits, Operand.isUnsigned digits = true ∧
      text = front ++ Operand.signed negative digits ∧
        span = ⟨Operand.token negative digits, front.length, (Operand.signed negative digits).length⟩ ∧
          scan text = scan front ++ [span] ∧
            if negative then Scan.signAllowed (lastToken? front) = true
            else front.getLast?.any Char.isDigit = false := by
  obtain ⟨earlier, split⟩ := List.getLast?_eq_some_iff.mp ends.last
  obtain ⟨front, negative, digits, unsigned, rfl, same, rfl, cut, allowed⟩ :=
    exists_signed_of_last split ends.stop ends.number
  refine ⟨front, negative, digits, unsigned, rfl, same, split, ?_⟩
  cases negative with
  | true => exact allowed rfl
  | false => exact cut.noDigit (Operand.startsWithDigit_of_isUnsigned unsigned)

end Calculator
