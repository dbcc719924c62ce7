import Calculator.Number.Literal

/-! # Reading literals

What `Literal.atStart` reads off a text that is put together from pieces. A text in which no literal
can continue leaves the literal in front of it as it is; a digit always makes it longer.
-/

namespace Calculator

private theorem takeWhile_append_stop (text : Text) {rest : Text} {keep : Char → Bool}
    (stop : rest.head?.any keep = false) : (text ++ rest).takeWhile keep = text.takeWhile keep := by
  induction text with
  | nil =>
    cases rest with
    | nil => rfl
    | cons c rest =>
      have fails : keep c = false := stop
      simp [fails]
  | cons c text ih => simp only [List.cons_append, List.takeWhile_cons, ih]

private theorem dropWhile_append_stop (text : Text) {rest : Text} {keep : Char → Bool}
    (stop : rest.head?.any keep = false) :
    (text ++ rest).dropWhile keep = text.dropWhile keep ++ rest := by
  induction text with
  | nil =>
    cases rest with
    | nil => rfl
    | cons c rest =>
      have fails : keep c = false := stop
      simp [fails]
  | cons c text ih =>
    simp only [List.cons_append, List.dropWhile_cons, ih]
    split <;> rfl

private theorem takeWhile_append_of_stopped {text : Text} {keep : Char → Bool}
    (stopped : text.dropWhile keep ≠ []) (rest : Text) :
    (text ++ rest).takeWhile keep = text.takeWhile keep := by
  rw [List.takeWhile_append, if_neg]
  intro whole
  have parts := congrArg List.length (List.takeWhile_append_dropWhile (p := keep) (l := text))
  have positive := List.length_pos_iff.mpr stopped
  rw [List.length_append] at parts
  omega

private theorem dropWhile_append_of_stopped {text : Text} {keep : Char → Bool}
    (stopped : text.dropWhile keep ≠ []) (rest : Text) :
    (text ++ rest).dropWhile keep = text.dropWhile keep ++ rest := by
  rw [List.dropWhile_append, if_neg (by simpa using stopped)]

private theorem takeWhile_of_append {text rest : Text} {keep : Char → Bool}
    (fits : ((text ++ rest).takeWhile keep).length ≤ text.length) :
    (text ++ rest).takeWhile keep = text.takeWhile keep := by
  by_cases all : text.dropWhile keep = []
  · have whole : text.takeWhile keep = text := by
      simpa [all] using List.takeWhile_append_dropWhile (p := keep) (l := text)
    have across : (text ++ rest).takeWhile keep = text ++ rest.takeWhile keep := by
      rw [List.takeWhile_append, whole, if_pos rfl]
    rw [across, List.length_append] at fits
    have none : rest.takeWhile keep = [] := List.eq_nil_of_length_eq_zero (by omega)
    rw [across, none, List.append_nil, whole]
  · exact takeWhile_append_of_stopped all rest

namespace Literal

/-- The integer part is the run of digits at the start. -/
theorem atStart_whole (text : Text) : (atStart text).whole = text.takeWhile Char.isDigit := by
  unfold atStart
  split <;> rfl

/-- A literal has digits exactly if the text starts with one. -/
theorem whole_atStart_ne_nil_iff {text : Text} :
    (atStart text).whole ≠ [] ↔ startsWithDigit text = true := by
  rw [atStart_whole]
  cases text with
  | nil => simp [startsWithDigit]
  | cons c rest => simp [startsWithDigit, List.takeWhile_cons]

/-- A literal does not continue in a text that starts with neither a digit nor a point. -/
theorem atStart_append (text : Text) {rest : Text} (noDigit : startsWithDigit rest = false)
    (noPoint : rest.head? ≠ some '.') : atStart (text ++ rest) = atStart text := by
  unfold atStart
  rw [takeWhile_append_stop text noDigit, dropWhile_append_stop text noDigit]
  cases text.dropWhile Char.isDigit with
  | nil =>
    cases rest with
    | nil => rfl
    | cons c rest =>
      have other : c ≠ '.' := by simpa using noPoint
      simp [other]
  | cons c after =>
    by_cases point : c = '.'
    · subst point
      simp [takeWhile_append_stop after noDigit]
    · simp [point]

/-- A literal that is followed by more than a point does not continue behind the text. -/
theorem atStart_append_of_after {text after : Text} (rest : Text)
    (split : text = (atStart text).spelling ++ after) (nonempty : after ≠ [])
    (noPoint : after ≠ ['.']) : atStart (text ++ rest) = atStart text := by
  have parts : text.takeWhile Char.isDigit ++ text.dropWhile Char.isDigit = text :=
    List.takeWhile_append_dropWhile
  generalize behind : text.dropWhile Char.isDigit = continued at parts
  cases continued with
  | nil =>
    have whole : (atStart text).spelling = text := by
      rw [atStart, behind]
      simpa [spelling] using parts
    rw [whole] at split
    exact absurd (List.self_eq_append_right.mp split) nonempty
  | cons c more =>
    have stopped : text.dropWhile Char.isDigit ≠ [] := by simp [behind]
    have whole := takeWhile_append_of_stopped stopped rest
    have across := dropWhile_append_of_stopped stopped rest
    rw [behind, List.cons_append] at across
    by_cases point : c = '.'
    · subst point
      -- The fraction ends inside the text, whether it has digits or not.
      have fraction : more.dropWhile Char.isDigit ≠ [] := by
        intro all
        have digits : more.takeWhile Char.isDigit = more := by
          simpa [all] using List.takeWhile_append_dropWhile (p := Char.isDigit) (l := more)
        rw [atStart, behind] at split
        simp only [spelling, digits] at split
        by_cases none : more = []
        · rw [if_pos none, List.append_nil] at split
          rw [none] at parts
          exact noPoint (List.append_cancel_left (split.symm.trans parts.symm))
        · rw [if_neg none, parts] at split
          exact nonempty (List.self_eq_append_right.mp split)
      rw [atStart, atStart, behind, whole, across]
      simp only [takeWhile_append_of_stopped fraction rest]
    · rw [atStart, atStart, behind, whole, across]
      simp [point]

/-- A literal that ends within the text is the literal of the text alone. -/
theorem atStart_of_append {text rest : Text}
    (fits : (atStart (text ++ rest)).spelling.length ≤ text.length) :
    atStart (text ++ rest) = atStart text := by
  have whole : (text ++ rest).takeWhile Char.isDigit = text.takeWhile Char.isDigit := by
    apply takeWhile_of_append
    rw [← atStart_whole]
    rw [spelling, List.length_append] at fits
    omega
  have parts : text.takeWhile Char.isDigit ++ text.dropWhile Char.isDigit = text :=
    List.takeWhile_append_dropWhile
  have behind : (text ++ rest).dropWhile Char.isDigit = text.dropWhile Char.isDigit ++ rest := by
    have across := List.takeWhile_append_dropWhile (p := Char.isDigit) (l := text ++ rest)
    rw [whole] at across
    refine List.append_cancel_left (across.trans ?_)
    rw [← List.append_assoc, parts]
  have length := congrArg List.length parts
  rw [List.length_append] at length
  unfold atStart at fits ⊢
  rw [whole, behind] at fits ⊢
  cases continued : text.dropWhile Char.isDigit with
  | nil =>
    rw [continued] at fits length
    cases rest with
    | nil => rfl
    | cons c rest =>
      by_cases point : c = '.'
      · subst point
        by_cases none : rest.takeWhile Char.isDigit = []
        · simp [none]
        · -- With a fraction the literal would be longer than the text.
          simp only [List.nil_append, spelling, if_neg none, List.length_append, List.length_cons] at fits
          simp only [List.length_nil] at length
          omega
      · simp [point]
  | cons c more =>
    rw [continued] at fits length
    by_cases point : c = '.'
    · subst point
      have fraction : (more ++ rest).takeWhile Char.isDigit = more.takeWhile Char.isDigit := by
        apply takeWhile_of_append
        simp only [List.cons_append, spelling, List.length_append] at fits
        simp only [List.length_cons] at length
        split at fits
        · next none => simp [none]
        · rw [List.length_cons] at fits
          omega
      simp [fraction]
    · simp [point]

/-- The literal is spelled at the start of the text. -/
theorem spelling_atStart_prefix (text : Text) : (atStart text).spelling <+: text := by
  have parts : text.takeWhile Char.isDigit ++ text.dropWhile Char.isDigit = text :=
    List.takeWhile_append_dropWhile
  unfold atStart
  split
  · next after continues =>
    rw [continues] at parts
    simp only [spelling]
    split
    · exact ⟨'.' :: after, by simpa using parts⟩
    · refine ⟨after.dropWhile Char.isDigit, ?_⟩
      simpa [List.takeWhile_append_dropWhile] using parts
  · exact ⟨text.dropWhile Char.isDigit, by simp [spelling]⟩

/-- No digit stands behind a literal. -/
theorem startsWithDigit_after {text after : Text} (split : text = (atStart text).spelling ++ after) :
    startsWithDigit after = false := by
  have stops (text : Text) : startsWithDigit (text.dropWhile Char.isDigit) = false := by
    have first := List.head?_dropWhile_not Char.isDigit text
    unfold startsWithDigit
    split at first
    · next head => simp [head, first]
    · next head => simp [head]
  have parts : text.takeWhile Char.isDigit ++ text.dropWhile Char.isDigit = text :=
    List.takeWhile_append_dropWhile
  have whole := stops text
  rw [atStart] at split
  split at split
  · next more point =>
    simp only [spelling] at split
    split at split
    · rw [List.append_nil] at split
      have same := List.append_cancel_left (parts.trans split)
      rwa [same] at whole
    · rw [List.append_assoc] at split
      have same := point.symm.trans (List.append_cancel_left (parts.trans split))
      have fraction := (List.takeWhile_append_dropWhile (p := Char.isDigit) (l := more)).trans
        (List.cons.inj same).2
      rw [← List.append_cancel_left fraction]
      exact stops more
  · rw [spelling, if_pos rfl, List.append_nil] at split
    have same := List.append_cancel_left (parts.trans split)
    rwa [same] at whole

end Literal

/-- A literal that can be typed: at least one digit, and nothing but digits. -/
structure Numeral extends Literal where
  whole_ne_nil : whole ≠ []
  whole_digits : ∀ c ∈ whole, c.isDigit
  fraction_digits : ∀ c ∈ fraction, c.isDigit

namespace Numeral

/-- The numeral of a single digit. -/
def ofDigit (c : Char) (digit : c.isDigit = true) : Numeral where
  whole := [c]
  fraction := []
  whole_ne_nil := by simp
  whole_digits := by simpa using digit
  fraction_digits := by simp

/-- The numeral at the start of a text that starts with a digit. -/
def atStart (text : Text) (digit : startsWithDigit text = true) : Numeral where
  toLiteral := Literal.atStart text
  whole_ne_nil := Literal.whole_atStart_ne_nil_iff.mpr digit
  whole_digits := by
    rw [Literal.atStart_whole]
    exact List.all_eq_true.mp List.all_takeWhile
  fraction_digits := by
    unfold Literal.atStart
    split
    · exact List.all_eq_true.mp List.all_takeWhile
    · exact List.forall_mem_nil _

/-- A text that starts with a digit starts with a numeral, which is read as a literal there. -/
theorem exists_append {text : Text} (digit : startsWithDigit text = true) :
    ∃ (numeral : Numeral) (back : Text), text = numeral.spelling ++ back ∧
      Literal.atStart text = numeral.toLiteral := by
  obtain ⟨back, split⟩ := Literal.spelling_atStart_prefix text
  exact ⟨atStart text digit, back, split.symm, rfl⟩

theorem spelling_ne_nil (numeral : Numeral) : numeral.spelling ≠ [] := by
  simp [Literal.spelling, numeral.whole_ne_nil]

/-- Only digits and points stand in a numeral. -/
theorem isDigit_or_point (numeral : Numeral) {c : Char} (member : c ∈ numeral.spelling) :
    c.isDigit = true ∨ c = '.' := by
  rcases List.mem_append.mp member with whole | fraction
  · exact .inl (numeral.whole_digits c whole)
  · split at fraction
    · cases fraction
    · exact (List.mem_cons.mp fraction).symm.imp_left (numeral.fraction_digits c)

theorem startsWithDigit_append (numeral : Numeral) (rest : Text) :
    startsWithDigit (numeral.spelling ++ rest) = true := by
  obtain ⟨c, whole, spelled⟩ := List.exists_cons_of_ne_nil numeral.whole_ne_nil
  have digit : c.isDigit = true := numeral.whole_digits c (by simp [spelled])
  simpa [startsWithDigit, Literal.spelling, spelled] using digit

private theorem atStart_spelling_append (numeral : Numeral) (rest : Text) :
    Literal.atStart (numeral.spelling ++ rest) =
      if numeral.fraction = [] then
        let after := Literal.atStart rest
        ⟨numeral.whole ++ after.whole, after.fraction⟩
      else ⟨numeral.whole, numeral.fraction ++ rest.takeWhile Char.isDigit⟩ := by
  by_cases integral : numeral.fraction = []
  · rw [if_pos integral]
    simp only [Literal.spelling, if_pos integral, List.append_nil, Literal.atStart,
      List.takeWhile_append_of_pos numeral.whole_digits,
      List.dropWhile_append_of_pos numeral.whole_digits]
    split <;> rfl
  · rw [if_neg integral]
    simp only [Literal.spelling, if_neg integral, Literal.atStart, List.append_assoc,
      List.takeWhile_append_of_pos numeral.whole_digits,
      List.dropWhile_append_of_pos numeral.whole_digits, List.cons_append]
    simp [List.takeWhile_append_of_pos numeral.fraction_digits]

/-- A numeral is read back. -/
theorem atStart_spelling (numeral : Numeral) :
    Literal.atStart numeral.spelling = numeral.toLiteral := by
  have read := atStart_spelling_append numeral []
  rw [List.append_nil] at read
  rw [read]
  split
  · next integral =>
    simp only [Literal.atStart, List.takeWhile_nil, List.dropWhile_nil, List.append_nil]
    rw [← integral]
  · simp

/-- A digit after a numeral makes the literal longer. -/
theorem length_lt_atStart (numeral : Numeral) {rest : Text} (digit : startsWithDigit rest = true) :
    numeral.spelling.length < (Literal.atStart (numeral.spelling ++ rest)).spelling.length := by
  obtain ⟨c, tail, rfl⟩ : ∃ c tail, rest = c :: tail := by
    cases rest with
    | nil => simp [startsWithDigit] at digit
    | cons c tail => exact ⟨c, tail, rfl⟩
  have isDigit : c.isDigit = true := digit
  rw [atStart_spelling_append]
  by_cases integral : numeral.fraction = []
  · simp only [integral, if_true, Literal.spelling, Literal.atStart_whole,
      List.takeWhile_cons_of_pos isDigit, List.length_append, List.length_cons, List.length_nil]
    omega
  · have longer : numeral.fraction ++ c :: tail.takeWhile Char.isDigit ≠ [] := by simp
    simp only [integral, if_false, Literal.spelling, List.takeWhile_cons_of_pos isDigit, longer,
      List.length_append, List.length_cons]
    omega

/-- A numeral that a literal ends with does not go on with a digit. -/
theorem startsWithDigit_behind {numeral : Numeral} {back : Text}
    (ends : Literal.atStart (numeral.spelling ++ back) = numeral.toLiteral) :
    startsWithDigit back = false := by
  have split : numeral.spelling ++ back =
      (Literal.atStart (numeral.spelling ++ back)).spelling ++ back := by rw [ends]
  exact Literal.startsWithDigit_after split

/-- A numeral without a point that a literal ends with does not go on with a point and a digit. -/
theorem startsWithDigit_behind_point {numeral : Numeral} {back : Text}
    (ends : Literal.atStart (numeral.spelling ++ '.' :: back) = numeral.toLiteral)
    (noPoint : '.' ∉ numeral.spelling) : startsWithDigit back = false := by
  have integral : numeral.fraction = [] :=
    Decidable.not_not.mp fun fractional => noPoint (by simp [Literal.spelling, fractional])
  rw [atStart_spelling_append, if_pos integral] at ends
  have fraction : back.takeWhile Char.isDigit = numeral.fraction := congrArg Literal.fraction ends
  rw [integral] at fraction
  cases back with
  | nil => rfl
  | cons c rest =>
    refine Bool.eq_false_iff.mpr fun (digit : c.isDigit = true) => ?_
    rw [List.takeWhile_cons_of_pos digit] at fraction
    cases fraction

end Numeral

end Calculator
