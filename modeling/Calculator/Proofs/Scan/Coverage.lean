import Calculator.Proofs.Buffer.TrailingToken

/-! # Texts that are read in full

The scanner passes over what it does not know. In a text made of whole words and of characters that are
known by themselves this can only be a point, since no word starts with another one. Such texts can be
put together, and they can be cut where a token starts.
-/

namespace Calculator

namespace Scan

open Operand (isNumeralCharacter)

variable {previous : Option Token} {start length : Nat} {text front back rest word : Text} {c : Char}
  {token : Token} {span : Span}

/-- Whether a character is known by itself: it can stand in a numeral or is a symbol. -/
def isSingle (c : Char) : Bool := isNumeralCharacter c || (symbol? c).isSome

/-- Texts that are made of words and of characters known by themselves. -/
inductive Legible : Text → Prop
  | nil : Legible []
  | single {c : Char} {rest : Text} (single : isSingle c = true) (legible : Legible rest) :
      Legible (c :: rest)
  | word {word rest : Text} (known : word ∈ words.map Prod.fst) (legible : Legible rest) :
      Legible (word ++ rest)

private theorem letters_of_word (known : word ∈ words.map Prod.fst) :
    (∃ c tail, word = c :: tail ∧ isSingle c = false) ∧ ∃ c ∈ word.getLast?, isSingle c = false := by
  have all : ∀ word ∈ words.map Prod.fst, word.head?.any (fun c => !isSingle c) = true ∧
      word.getLast?.any (fun c => !isSingle c) = true := by decide
  obtain ⟨first, last⟩ := all word known
  obtain ⟨c, head, other⟩ := (Option.any_eq_true ..).mp first
  obtain ⟨tail, rfl⟩ := List.head?_eq_some_iff.mp head
  obtain ⟨d, ending, otherEnding⟩ := (Option.any_eq_true ..).mp last
  exact ⟨⟨c, tail, rfl, by simpa using other⟩, d, ending, by simpa using otherEnding⟩

private theorem words_prefix_free : ∀ word ∈ words.map Prod.fst, ∀ other ∈ words.map Prod.fst,
    word <+: other → word = other := by decide

theorem legible_of_all (all : ∀ c ∈ text, isSingle c = true) : Legible text := by
  induction text with
  | nil => exact .nil
  | cons c text ih =>
    obtain ⟨single, all⟩ := List.forall_mem_cons.mp all
    exact .single single (ih all)

theorem Legible.append (legible : Legible front) (legibleBack : Legible back) :
    Legible (front ++ back) := by
  induction legible with
  | nil => exact legibleBack
  | single single _ ih => exact .single single ih
  | word known _ ih =>
    rw [List.append_assoc]
    exact .word known ih

theorem Legible.noBreak (legible : Legible text) : '\n' ∉ text := by
  have noBreakWord : ∀ word ∈ words.map Prod.fst, '\n' ∉ word := by decide
  induction legible with
  | nil => simp
  | single single _ ih =>
    rintro (_ | ⟨_, member⟩)
    · cases single
    · exact ih member
  | word known _ ih => exact fun member => (List.mem_append.mp member).elim (noBreakWord _ known) ih

/-- A character known by itself is no part of what stands behind it. -/
theorem Legible.tail (legible : Legible (c :: rest)) (single : isSingle c = true) : Legible rest := by
  generalize whole : c :: rest = text at legible
  cases legible with
  | nil => cases whole
  | single _ legible =>
    cases whole
    exact legible
  | word known legible =>
    obtain ⟨⟨first, tail, rfl, other⟩, -⟩ := letters_of_word known
    obtain ⟨rfl, -⟩ := List.cons.inj whole
    rw [single] at other
    cases other

/-- A word is no part of what stands behind it. -/
theorem Legible.of_word (legible : Legible (word ++ rest)) (known : word ∈ words.map Prod.fst) :
    Legible rest := by
  obtain ⟨⟨first, tail, spelled, other⟩, -⟩ := letters_of_word known
  generalize whole : word ++ rest = text at legible
  cases legible with
  | nil =>
    rw [spelled] at whole
    cases whole
  | single single legible =>
    rw [spelled] at whole
    obtain ⟨rfl, -⟩ := List.cons.inj whole
    rw [single] at other
    cases other
  | @word otherWord otherRest otherKnown legible =>
    -- The shorter one of the two words starts the longer one.
    obtain rfl : word = otherWord := by
      rcases List.prefix_or_prefix_of_prefix (List.prefix_append word rest)
        (whole ▸ List.prefix_append otherWord otherRest) with shorter | longer
      · exact words_prefix_free _ known _ otherKnown shorter
      · exact (words_prefix_free _ otherKnown _ known longer).symm
    rw [List.append_cancel_left whole]
    exact legible

/-- What is left behind a legible beginning is legible. -/
theorem Legible.right (legible : Legible front) (whole : Legible (front ++ back)) : Legible back := by
  induction legible with
  | nil => exact whole
  | single single _ ih => exact ih (whole.tail single)
  | word known _ ih =>
    rw [List.append_assoc] at whole
    exact ih (whole.of_word known)

/-- Characters known by themselves can be taken off at the end, as no word ends with one. -/
theorem Legible.left (whole : Legible (front ++ back)) (singles : ∀ c ∈ back, isSingle c = true) :
    Legible front := by
  generalize split : front ++ back = text at whole
  induction whole generalizing front with
  | nil =>
    obtain ⟨rfl, -⟩ := List.append_eq_nil_iff.mp split
    exact .nil
  | single single _ ih =>
    cases front with
    | nil => exact .nil
    | cons first front =>
      obtain ⟨rfl, same⟩ := List.cons.inj split
      exact .single single (ih same)
  | @word word rest known legible ih =>
    rcases List.append_eq_append_iff.mp split with ⟨more, rfl, rfl⟩ | ⟨more, rfl, reached⟩
    · by_cases none : more = []
      · rw [none, List.append_nil] at known
        simpa using Legible.word known .nil
      · obtain ⟨-, c, last, other⟩ := letters_of_word known
        rw [List.getLast?_append_of_ne_nil _ none] at last
        have single := singles c (List.mem_append_left _ (List.mem_of_mem_getLast? last))
        rw [single] at other
        cases other
    · exact .word known (ih reached.symm)

/-- The characters of a number are known by themselves, and those of another token too, or they are a
word. -/
theorem Reads.singles_or_word (reads : Reads previous rest front token) :
    (∀ c ∈ front, isSingle c = true) ∨ token.isNumber = false ∧ front ∈ words.map Prod.fst := by
  have literal (numeral : Numeral) : ∀ c ∈ numeral.spelling, isSingle c = true := by
    intro c member
    rcases numeral.isDigit_or_point member with digit | rfl
    · simp [isSingle, isNumeralCharacter, digit]
    · rfl
  cases reads with
  | number numeral => exact .inl (literal numeral)
  | negative numeral => exact .inl (List.forall_mem_cons.mpr ⟨rfl, literal numeral⟩)
  | symbol known => exact .inl (List.forall_mem_singleton.mpr (by simp [isSingle, known]))
  | word known => exact .inr ⟨words_noNumber _ known, List.mem_map_of_mem known⟩

/-- A step takes off a piece. -/
theorem Legible.of_lexeme? (legible : Legible (front ++ rest))
    (read : lexeme? previous (front ++ rest) = some (token, front.length)) :
    Legible front ∧ Legible rest ∧ (token.isNumber = true → ∀ c ∈ front, isSingle c = true) := by
  have pieces := (reads_of_lexeme? read).singles_or_word
  have piece : Legible front := by
    rcases pieces with singles | ⟨-, known⟩
    · exact legible_of_all singles
    · simpa using Legible.word known .nil
  refine ⟨piece, piece.right legible, fun number => pieces.resolve_right ?_⟩
  rintro ⟨noNumber, -⟩
  rw [number] at noNumber
  cases noNumber

/-- Only a point is passed over. -/
theorem Legible.of_skipped (legible : Legible (c :: rest))
    (skipped : lexeme? previous (c :: rest) = none) : c = '.' ∧ Legible rest := by
  obtain ⟨noDigit, noSymbol, noWord⟩ := unknown_of_skipped skipped
  generalize whole : c :: rest = text at legible noWord
  cases legible with
  | nil => cases whole
  | single single legible =>
    obtain ⟨rfl, rfl⟩ := List.cons.inj whole
    exact ⟨by simpa [isSingle, isNumeralCharacter, noDigit, noSymbol] using single, legible⟩
  | @word word rest known legible =>
    obtain ⟨⟨name, token⟩, member, rfl⟩ := List.mem_map.mp known
    exact absurd (List.prefix_append ..) (word?_eq_none_iff.mp noWord _ member)

/-- A token is cut out of a legible text where it starts, and the characters of a number one by one. -/
theorem Legible.cut (legible : Legible text) (member : span ∈ spansFrom previous start text) :
    Legible (text.take (span.start - start)) ∧ (span.token.isNumber = true →
      ∀ c ∈ (text.drop (span.start - start)).take span.length, isSingle c = true) := by
  fun_induction spansFrom previous start text with
  | case1 => cases member
  | case2 previous start c rest skipped ih =>
    obtain ⟨rfl, behind⟩ := legible.of_skipped skipped
    obtain ⟨before, inside⟩ := ih behind member
    have late := le_start_of_mem_spansFrom member
    have place : span.start - start = span.start - (start + 1) + 1 := by omega
    rw [place]
    exact ⟨.single rfl before, inside⟩
  | case3 previous start c rest token length read ih =>
    obtain ⟨first, split, rfl, nonempty⟩ := exists_append_drop_of_lexeme? read
    generalize rest.drop (first.length - 1) = later at ih split member
    rw [split] at read legible ⊢
    obtain ⟨piece, behind, singles⟩ := legible.of_lexeme? read
    cases member with
    | head => simpa using ⟨.nil, singles⟩
    | tail _ member =>
      obtain ⟨before, inside⟩ := ih behind member
      have late := le_start_of_mem_spansFrom member
      have place : span.start - start = first.length + (span.start - (start + first.length)) := by
        omega
      rw [place, List.take_length_add_append, List.drop_length_add_append]
      exact ⟨piece.append before, inside⟩

/-- Every character of a legible text but a point lies in a token. -/
theorem Legible.covers (legible : Legible text) {place : Nat} (here : text[place]? = some c)
    (noPoint : c ≠ '.') : ∃ span ∈ spansFrom previous start text,
      span.start ≤ start + place ∧ start + place < span.stop := by
  fun_induction spansFrom previous start text generalizing place with
  | case1 => simp at here
  | case2 previous start c rest skipped ih =>
    obtain ⟨rfl, behind⟩ := legible.of_skipped skipped
    cases place with
    | zero => exact absurd (Option.some.inj here).symm noPoint
    | succ place =>
      obtain ⟨span, member, begins, ends⟩ := ih behind here
      exact ⟨span, member, by omega, by omega⟩
  | case3 previous start c rest token length read ih =>
    obtain ⟨first, split, rfl, nonempty⟩ := exists_append_drop_of_lexeme? read
    generalize rest.drop (first.length - 1) = later at ih split ⊢
    rw [split] at read legible here
    by_cases inside : place < first.length
    · exact ⟨_, List.mem_cons_self .., Nat.le_add_right .., Nat.add_lt_add_left inside start⟩
    · rw [List.getElem?_append_right (by omega)] at here
      obtain ⟨span, member, begins, ends⟩ := ih (legible.of_lexeme? read).2.1 here
      exact ⟨span, List.mem_cons_of_mem _ member, by omega, by omega⟩

/-- A legible text ends with a token, unless it ends with a point. -/
theorem Legible.ends (legible : Legible text) (nonempty : text ≠ []) (noPoint : text.getLast? ≠ some '.') :
    ∃ span ∈ (spansFrom previous start text).getLast?, span.stop = start + text.length := by
  fun_induction spansFrom previous start text with
  | case1 => exact absurd rfl nonempty
  | case2 previous start c rest skipped ih =>
    obtain ⟨rfl, behind⟩ := legible.of_skipped skipped
    have more : rest ≠ [] := by
      rintro rfl
      exact noPoint rfl
    rw [List.getLast?_cons_of_ne_nil more] at noPoint
    obtain ⟨span, last, stop⟩ := ih behind more noPoint
    exact ⟨span, last, by rw [stop, List.length_cons]; omega⟩
  | case3 previous start c rest token length read ih =>
    obtain ⟨first, split, rfl, -⟩ := exists_append_drop_of_lexeme? read
    generalize rest.drop (first.length - 1) = later at ih split ⊢
    rw [split] at read legible noPoint ⊢
    by_cases more : later = []
    · subst more
      rw [spansFrom, List.append_nil]
      exact ⟨_, rfl, rfl⟩
    · rw [List.getLast?_append_of_ne_nil _ more] at noPoint
      obtain ⟨span, last, stop⟩ := ih (legible.of_lexeme? read).2.1 more noPoint
      refine ⟨span, ?_, by rw [stop, List.length_append]; omega⟩
      rw [List.getLast?_cons, Option.mem_def.mp last]
      rfl

/-- What backspace leaves of a legible text is legible: the character that it takes off is a point or belongs
to a number, and otherwise the text is cut in front of a token. -/
theorem Legible.kept (legible : Legible text) (nonempty : text ≠ []) : Legible (Buffer.kept text) := by
  have keeps := Buffer.keeps_kept text
  generalize Buffer.kept text = left at keeps
  cases keeps with
  | @token span member =>
    have cut : Legible (text.take (span.start - 0)) := (legible.cut member).1
    exact cut
  | character ends =>
    obtain ⟨front, c, rfl⟩ := (List.eq_nil_or_concat text).resolve_left nonempty
    rw [List.concat_eq_append] at legible ends nonempty ⊢
    have single : isSingle c = true := by
      by_cases point : c = '.'
      · rw [point]
        rfl
      · obtain ⟨span, last, stop⟩ : ∃ span ∈ (scan (front ++ [c])).getLast?,
            span.stop = 0 + (front ++ [c]).length := legible.ends nonempty (by simpa using point)
        rw [Nat.zero_add] at stop
        obtain ⟨earlier, spans⟩ := List.getLast?_eq_some_iff.mp last
        obtain ⟨positive, -⟩ := bounds_of_scan spans
        have singles := (legible.cut (List.mem_of_mem_getLast? last)).2 (ends span last stop)
        rw [Span.stop] at stop
        refine singles c (List.mem_of_getLast? ?_)
        rw [Nat.sub_zero, List.take_of_length_le (by rw [List.length_drop]; omega), List.getLast?_drop,
          if_neg (by omega), List.getLast?_concat]
    rw [List.dropLast_concat]
    exact legible.left (by simpa using single)

end Scan

/-- Every character of the text but a point is read as part of a token. -/
def CoversAllButPoints (text : Text) : Prop :=
  ∀ place c, text[place]? = some c → c ≠ '.' →
    ∃ span ∈ scan text, span.start ≤ place ∧ place < span.stop

/-- A legible text is read as tokens, but for points. -/
theorem Scan.Legible.coversAllButPoints {text : Text} (legible : Legible text) :
    CoversAllButPoints text := by
  intro place c here noPoint
  have covered : ∃ span ∈ scan text, span.start ≤ 0 + place ∧ 0 + place < span.stop :=
    legible.covers here noPoint
  rwa [Nat.zero_add] at covered

end Calculator
