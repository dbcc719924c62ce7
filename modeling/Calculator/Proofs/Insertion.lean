import Calculator.Engine
import Calculator.Proofs.Outcome
import Calculator.Proofs.Scan.Faithful

/-! # Characters that no token can hold

Blanks, capital letters and all other characters that no token is spelled with are passed over, and no token
reaches across one. Between two tokens such a character moves what stands behind it by one place and changes
nothing else: the scanner looks ahead across a place only inside a token, and what it looks back at is the
token in front, not the character. So both texts have the same tokens and are calculated alike.
-/

namespace Calculator

namespace Span

/-- The place lies strictly inside the span. -/
def Straddles (span : Span) (place : Nat) : Prop := span.start < place ∧ place < span.stop

/-- The span further to the right. -/
def moved (distance : Nat) (span : Span) : Span := { span with start := span.start + distance }

/-- The span after a character was put into the text at `place`: only what stands in front of the place stays
where it is. -/
def movedFrom (place : Nat) (span : Span) : Span := if place ≤ span.start then span.moved 1 else span

theorem token_movedFrom (place : Nat) (span : Span) : (span.movedFrom place).token = span.token := by
  unfold movedFrom
  split <;> rfl

end Span

namespace Scan

variable {previous : Option Token} {start : Nat} {text back first : Text} {c : Char} {token : Token}

/-- The characters that tokens are spelled with. -/
def isTokenCharacter (c : Char) : Bool :=
  c.isDigit || c == '.' || c.isLower || knownCharacters.contains c

private theorem isTokenCharacter_of_word :
    ∀ word ∈ words, ∀ c ∈ word.1, isTokenCharacter c = true := by
  have all : ∀ word ∈ words, word.1.all isTokenCharacter = true := by decide
  exact fun word member => List.all_eq_true.mp (all word member)

private theorem isTokenCharacter_of_symbol? (known : symbol? c = some token) :
    isTokenCharacter c = true := by
  unfold symbol? at known
  split_ifs at known with opens closes operator
  · rw [opens]
    rfl
  · rw [closes]
    rfl
  · have all : operatorCharacters.all isTokenCharacter = true := by decide
    exact List.all_eq_true.mp all c operator

/-- A step takes only characters that tokens are spelled with. -/
theorem Reads.isTokenCharacter (reads : Reads previous back first token) :
    ∀ c ∈ first, isTokenCharacter c = true := by
  have literal (numeral : Numeral) : ∀ c ∈ numeral.spelling, Scan.isTokenCharacter c = true := by
    intro c member
    rcases numeral.isDigit_or_point member with digit | rfl
    · simp [Scan.isTokenCharacter, digit]
    · rfl
  cases reads with
  | number numeral => exact literal numeral
  | negative numeral => exact List.forall_mem_cons.mpr ⟨rfl, literal numeral⟩
  | symbol known => exact List.forall_mem_singleton.mpr (isTokenCharacter_of_symbol? known)
  | word known => exact isTokenCharacter_of_word _ known

section Unknown

variable (unknown : isTokenCharacter c = false)
include unknown

/-- Another character is passed over. -/
theorem lexeme?_unknown (previous : Option Token) (rest : Text) :
    lexeme? previous (c :: rest) = none := by
  cases read : lexeme? previous (c :: rest) with
  | none => rfl
  | some lexeme =>
    obtain ⟨token, length⟩ := lexeme
    obtain ⟨first, back, split, -, reads⟩ := exists_reads_of_lexeme? read
    obtain ⟨d, first, rfl⟩ := List.exists_cons_of_ne_nil reads.ne_nil
    obtain ⟨rfl, -⟩ := List.cons.inj split
    exact absurd (reads.isTokenCharacter c (List.mem_cons_self ..)) (by simp [unknown])

/-- No token reaches across another character. -/
theorem apart_unknown (text rest : Text) : Apart text (c :: rest) := by
  have other : c.isDigit = false ∧ c ≠ '.' := by
    simp only [isTokenCharacter, Bool.or_eq_false_iff, beq_eq_false_iff_ne] at unknown
    exact ⟨unknown.1.1.1, unknown.1.1.2⟩
  refine ⟨other.1, by simpa using other.2, ?_⟩
  rintro word member first last split - more - reached
  obtain ⟨d, last, rfl⟩ := List.exists_cons_of_ne_nil more
  obtain ⟨rfl, -⟩ := List.cons_prefix_cons.mp reached
  have inWord : d ∈ word.1 := by simp [split]
  exact absurd (isTokenCharacter_of_word word member d inWord) (by simp [unknown])

end Unknown

/-- A scan that starts further to the right finds the same spans further to the right. -/
theorem spansFrom_add (distance : Nat) :
    spansFrom previous (start + distance) text =
      (spansFrom previous start text).map (Span.moved distance) := by
  fun_induction spansFrom previous start text with
  | case1 => rw [spansFrom, List.map_nil]
  | case2 previous start c rest skipped ih =>
    rw [spansFrom, skipped, ← ih, Nat.add_right_comm]
  | case3 previous start c rest token length read ih =>
    rw [spansFrom, read, List.map_cons, ← ih, Nat.add_right_comm start length]
    rfl

end Scan

section Insertion

variable {front back : Text} {c : Char}

/-- Between tokens the scan goes on behind another character as it does without it, one place further to
the right. -/
theorem scan_insert (unknown : Scan.isTokenCharacter c = false)
    (between : ∀ span ∈ scan (front ++ back), ¬ span.Straddles front.length) :
    scan (front ++ c :: back) = (scan (front ++ back)).map (Span.movedFrom front.length) := by
  have cut : Scan.Cut none front back := Scan.cut_of_outside fun span member => by
    have outside := between span member
    rw [Span.Straddles] at outside
    omega
  have cutInserted : Scan.Cut none front (c :: back) := (Scan.apart_unknown unknown front back).cut none
  have behind : Scan.spansFrom (lastToken? front) front.length (c :: back) =
      (Scan.spansFrom (lastToken? front) front.length back).map (Span.moved 1) := by
    rw [Scan.spansFrom, Scan.lexeme?_unknown unknown, Scan.spansFrom_add]
  rw [cutInserted.scan_append, cut.scan_append, behind, List.map_append]
  congr 1
  · -- A span in front ends in front of the place, so it starts there as well.
    refine ((List.map_congr_left fun span member => ?_).trans (List.map_id _)).symm
    obtain ⟨earlier, later, split⟩ := List.append_of_mem member
    obtain ⟨positive, inside, -⟩ := bounds_of_scan split
    rw [Span.stop] at inside
    rw [Span.movedFrom, if_neg (by omega), id]
  · refine List.map_congr_left fun span member => ?_
    rw [Span.movedFrom, if_pos (Scan.le_start_of_mem_spansFrom member)]

/-- A calculation depends on its text by the tokens alone. -/
theorem Settings.calculate_of_tokens {text other : Text} (settings : Settings)
    (same : (scan text).map Span.token = (scan other).map Span.token) :
    settings.calculate text = (settings.calculate other).map fun calculation =>
      { calculation with expression := text } := by
  have value : evaluate settings.mode text = evaluate settings.mode other := by
    rw [evaluate, tokenize, same]
    rfl
  rw [calculate, calculate, value]
  cases evaluate settings.mode other with
  | error failure => rfl
  | ok value =>
    rw [ok_bind, ok_bind]
    cases settings.resultText value <;> rfl

/-- A character that no token can hold, put into a text between its tokens, keeps all tokens, moves those
behind it by one place, and keeps every calculation but for the text that is given: the same value and the
same result, or the same error. -/
theorem unknown_character_inert (unknown : Scan.isTokenCharacter c = false)
    (between : ∀ span ∈ scan (front ++ back), ¬ span.Straddles front.length) :
    (scan (front ++ c :: back)).map Span.token = (scan (front ++ back)).map Span.token ∧
      scan (front ++ c :: back) = (scan (front ++ back)).map (Span.movedFrom front.length) ∧
        ∀ settings : Settings, settings.calculate (front ++ c :: back) =
          (settings.calculate (front ++ back)).map fun calculation =>
            { calculation with expression := front ++ c :: back } := by
  have spans := scan_insert unknown between
  have tokens : (scan (front ++ c :: back)).map Span.token = (scan (front ++ back)).map Span.token := by
    rw [spans, List.map_map]
    exact List.map_congr_left fun span _ => span.token_movedFrom front.length
  exact ⟨tokens, spans, fun settings => settings.calculate_of_tokens tokens⟩

/-- A blank behind the minus sign of `7-2`, which is subtraction with the blank and without it. -/
theorem unknown_character_inert_subtraction :
    Scan.isTokenCharacter ' ' = false ∧
      (∀ span ∈ scan ("7-".toList ++ "2".toList), ¬ span.Straddles "7-".toList.length) ∧
        scan "7- 2".toList = (scan "7-2".toList).map (Span.movedFrom 2) ∧
          Settings.standard.calculate "7- 2".toList = (Settings.standard.calculate "7-2".toList).map
            fun calculation => { calculation with expression := "7- 2".toList } := by
  have unknown : Scan.isTokenCharacter ' ' = false := by decide
  have between : ∀ span ∈ scan ("7-".toList ++ "2".toList), ¬ span.Straddles "7-".toList.length := by
    unfold Span.Straddles
    decide +kernel
  obtain ⟨-, spans, calculations⟩ := unknown_character_inert unknown between
  exact ⟨unknown, between, spans, calculations .standard⟩

end Insertion

end Calculator
