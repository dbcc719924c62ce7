import Calculator.Proofs.Number.Literal
import Calculator.Proofs.Token
import Calculator.Span

/-! # Single steps of the scanner

What one step reads, and how a scan goes on after it. The texts are arbitrary: nothing is assumed of
the characters that come later.
-/

namespace Calculator.Scan

variable {previous : Option Token} {start : Nat} {text : Text}

/-- A text that starts with a digit starts with a number. -/
theorem lexeme?_digit (digit : startsWithDigit text = true) :
    lexeme? previous text =
      some (.number (Literal.atStart text).value false, (Literal.atStart text).spelling.length) := by
  cases text with
  | nil => simp [startsWithDigit] at digit
  | cons c rest =>
    have isDigit : c.isDigit = true := digit
    have noSign : c ≠ '-' := by
      rintro rfl
      exact absurd isDigit (by decide)
    simp only [lexeme?, noSign, isDigit, false_and, if_false, if_true]

/-- A minus sign is the sign of a number exactly when a digit follows and the token before allows a
sign. -/
theorem lexeme?_minus (previous : Option Token) (rest : Text) :
    lexeme? previous ('-' :: rest) =
      if startsWithDigit rest = true ∧ signAllowed previous = true then
        some (.number (-(Literal.atStart rest).value) false,
          (Literal.atStart rest).spelling.length + 1)
      else some (Token.binary .minus, 1) := by
  by_cases sign : startsWithDigit rest = true ∧ signAllowed previous = true
  · rw [if_pos sign]
    simp only [lexeme?, sign, and_self, if_true]
  · rw [if_neg sign]
    simp only [lexeme?, true_and, sign, if_false]
    rfl

/-- What is passed over is neither a digit nor a symbol, and starts no word. -/
theorem unknown_of_skipped {c : Char} {rest : Text} (skipped : lexeme? previous (c :: rest) = none) :
    c.isDigit = false ∧ symbol? c = none ∧ word? (c :: rest) = none := by
  simp only [lexeme?] at skipped
  split at skipped
  · cases skipped
  · split at skipped
    · cases skipped
    · next noDigit =>
      split at skipped
      · cases skipped
      · next noSymbol => exact ⟨by simpa using noDigit, noSymbol, skipped⟩

/-- There is no word at the start of a text exactly if the text starts with none. -/
theorem word?_eq_none_iff : word? text = none ↔ ∀ word ∈ words, ¬ word.1 <+: text := by
  rw [word?, Option.map_eq_none_iff, List.find?_eq_none]
  simp only [List.isPrefixOf_iff_prefix]

/-- No word is a number, and none has a digit in it. -/
theorem words_noNumber : ∀ word ∈ words, word.2.isNumber = false := by decide

theorem words_noDigit : ∀ word ∈ words, ∀ c ∈ word.1, c.isDigit = false := by
  have none : ∀ word ∈ words, word.1.any Char.isDigit = false := by decide
  exact fun word member => by simpa using none word member

theorem words_ne_nil : ∀ word ∈ words, word.1 ≠ [] := by decide

/-- What a step takes off in front of the rest `back`, and the token that it makes of it: a numeral that
does not go on in the rest, possibly with a sign, a symbol or a word. -/
inductive Reads (previous : Option Token) (back : Text) : Text → Token → Prop
  | number (numeral : Numeral)
      (ends : Literal.atStart (numeral.spelling ++ back) = numeral.toLiteral) :
      Reads previous back numeral.spelling (.number numeral.value false)
  | negative (numeral : Numeral)
      (ends : Literal.atStart (numeral.spelling ++ back) = numeral.toLiteral)
      (allowed : signAllowed previous = true) :
      Reads previous back ('-' :: numeral.spelling) (.number (-numeral.value) false)
  | symbol {c : Char} {token : Token} (known : symbol? c = some token) : Reads previous back [c] token
  | word {word : Text} {token : Token} (known : (word, token) ∈ words) : Reads previous back word token

/-- Every step takes a character at least. -/
theorem Reads.ne_nil {first back : Text} {token : Token} (reads : Reads previous back first token) :
    first ≠ [] := by
  cases reads with
  | number numeral => exact numeral.spelling_ne_nil
  | negative => exact List.cons_ne_nil _ _
  | symbol => exact List.cons_ne_nil _ _
  | word known => exact words_ne_nil _ known

private theorem isSupported_operatorCharacters :
    operatorCharacters.all (fun c => (Token.operator (String.singleton c)).isSupported) = true := by
  decide

/-- A step reads only what evaluation knows. -/
theorem Reads.isSupported {first back : Text} {token : Token}
    (reads : Reads previous back first token) : token.isSupported = true := by
  have all : ∀ word ∈ words, word.2.isSupported = true := by decide
  cases reads with
  | number | negative => rfl
  | word known => exact all _ known
  | symbol known =>
    unfold symbol? at known
    split_ifs at known with opens closes operator
    · cases known
      rfl
    · cases known
      rfl
    · cases known
      exact List.all_eq_true.mp isSupported_operatorCharacters _ operator

/-- A step takes off the start of the text. -/
theorem exists_reads_of_lexeme? {token : Token} {length : Nat}
    (read : lexeme? previous text = some (token, length)) :
    ∃ first back, text = first ++ back ∧ length = first.length ∧ Reads previous back first token := by
  cases text with
  | nil => cases read
  | cons c rest =>
    simp only [lexeme?] at read
    split at read
    · next sign =>
      obtain ⟨rfl, digit, allowed⟩ := sign
      obtain ⟨numeral, back, rfl, whole⟩ := Numeral.exists_append digit
      rw [whole] at read
      obtain ⟨rfl, rfl⟩ := Prod.mk.inj (Option.some.inj read)
      exact ⟨_, back, rfl, rfl, .negative numeral whole allowed⟩
    · split at read
      · next digit =>
        have starts : startsWithDigit (c :: rest) = true := digit
        obtain ⟨numeral, back, split, whole⟩ := Numeral.exists_append starts
        rw [whole] at read
        obtain ⟨rfl, rfl⟩ := Prod.mk.inj (Option.some.inj read)
        exact ⟨_, back, split, rfl, .number numeral (split ▸ whole)⟩
      · split at read
        · next known =>
          obtain ⟨rfl, rfl⟩ := Prod.mk.inj (Option.some.inj read)
          exact ⟨[c], rest, rfl, rfl, .symbol known⟩
        · obtain ⟨word, found, same⟩ := Option.map_eq_some_iff.mp read
          obtain ⟨rfl, rfl⟩ := Prod.mk.inj same
          have matched := List.find?_some found
          obtain ⟨back, split⟩ := List.isPrefixOf_iff_prefix.mp matched
          exact ⟨word.1, back, split.symm, rfl, .word (List.mem_of_find?_eq_some found)⟩

/-- A step that reads exactly `first` reads it as one of these. -/
theorem reads_of_lexeme? {first back : Text} {token : Token}
    (read : lexeme? previous (first ++ back) = some (token, first.length)) :
    Reads previous back first token := by
  obtain ⟨taken, rest, split, length, reads⟩ := exists_reads_of_lexeme? read
  obtain ⟨rfl, rfl⟩ := List.append_inj split length
  exact reads

/-- The token that comes before what follows a sequence: the one of its last element, or `previous`
if it has none. -/
def lastFrom {α : Type} (token : α → Token) (previous : Option Token) (sequence : List α) :
    Option Token :=
  (sequence.getLast?.map token).or previous

theorem lastFrom_cons {α : Type} (token : α → Token) (first : α) (sequence : List α) :
    lastFrom token previous (first :: sequence) = lastFrom token (some (token first)) sequence := by
  rw [lastFrom, lastFrom, List.getLast?_cons]
  cases sequence.getLast? <;> rfl

theorem lastFrom_none {α : Type} (token : α → Token) (sequence : List α) :
    lastFrom token none sequence = sequence.getLast?.map token := Option.or_none

/-- A step that reads exactly `first` is followed by the scan of the rest. -/
theorem spansFrom_of_lexeme? {first rest : Text} {token : Token} (nonempty : first ≠ [])
    (read : lexeme? previous (first ++ rest) = some (token, first.length)) :
    spansFrom previous start (first ++ rest) =
      ⟨token, start, first.length⟩ :: spansFrom (some token) (start + first.length) rest := by
  obtain ⟨c, first, rfl⟩ := List.exists_cons_of_ne_nil nonempty
  simp only [List.cons_append, List.length_cons] at read ⊢
  rw [spansFrom, read]
  simp

/-- Spans lie to the right of the place where the scan starts. -/
theorem le_start_of_mem_spansFrom {span : Span} (member : span ∈ spansFrom previous start text) :
    start ≤ span.start := by
  fun_induction spansFrom previous start text with
  | case1 => cases member
  | case2 previous start c rest skipped ih => exact Nat.le_of_succ_le (ih member)
  | case3 previous start c rest token length read ih =>
    cases member with
    | head => exact Nat.le_refl _
    | tail _ later => exact Nat.le_trans (Nat.le_add_right ..) (ih later)

/-- The first span starts at once exactly when the first step reads it. -/
theorem spansFrom_eq_cons_iff {first rest : Text} {token : Token} {later : List Span}
    (nonempty : first ≠ []) :
    spansFrom previous start (first ++ rest) = ⟨token, start, first.length⟩ :: later ↔
      lexeme? previous (first ++ rest) = some (token, first.length) ∧
        spansFrom (some token) (start + first.length) rest = later := by
  constructor
  · intro spans
    have read : lexeme? previous (first ++ rest) = some (token, first.length) := by
      obtain ⟨c, first, rfl⟩ := List.exists_cons_of_ne_nil nonempty
      rw [List.cons_append, spansFrom] at spans
      cases read : lexeme? previous (c :: (first ++ rest)) with
      | none =>
        rw [read] at spans
        have late := le_start_of_mem_spansFrom (spans ▸ List.mem_cons_self ..)
        exact absurd late (Nat.not_succ_le_self start)
      | some lexeme =>
        rw [read] at spans
        obtain ⟨same, -⟩ := List.cons.inj spans
        simp only [Span.mk.injEq, true_and] at same
        rw [List.cons_append, read, ← same.1, ← same.2]
    exact ⟨read, (List.cons.inj ((spansFrom_of_lexeme? nonempty read).symm.trans spans)).2⟩
  · rintro ⟨read, rfl⟩
    exact spansFrom_of_lexeme? nonempty read

end Calculator.Scan
