import Calculator.Proofs.Scan.Step

/-! # Scanning what was spelled

Lexemes are the pieces that a text can be spelled from. Scanning gives every lexeme back, in its
place, unless neighbours are misread. Only three kinds of neighbours are, and `Lexeme.Unambiguous`
rules out exactly these: numbers that run together, a sign that is taken for subtraction, and a
subtraction that is taken for a sign.
-/

namespace Calculator

/-- What a text is spelled from. A number is spelled with or without a sign. -/
inductive Lexeme where
  | number (negative : Bool) (numeral : Numeral)
  | binary (operator : BinaryOperator)
  | percentSign
  | factorialSign
  | function (f : Function)
  | opening
  | closing
  | pi

namespace Lexeme

/-- The characters of a lexeme. -/
def spelling : Lexeme → Text
  | number false numeral => numeral.spelling
  | number true numeral => '-' :: numeral.spelling
  | binary operator => operator.symbol.toList
  | percentSign => ['%']
  | factorialSign => ['!']
  | function f => f.name.toList
  | opening => ['(']
  | closing => [')']
  | pi => ['π']

/-- The token that a lexeme spells. -/
def token : Lexeme → Token
  | number false numeral => .number numeral.value false
  | number true numeral => .number (-numeral.value) false
  | binary operator => .binary operator
  | percentSign => .percentSign
  | factorialSign => .factorialSign
  | function f => .function f.name
  | opening => .opening
  | closing => .closing
  | pi => .pi

/-- The text of a sequence of lexemes. -/
def spell (lexemes : List Lexeme) : Text := lexemes.flatMap spelling

/-- The spans of a sequence of lexemes that is spelled from place `start` on. -/
def spansFrom (start : Nat) : List Lexeme → List Span
  | [] => []
  | lexeme :: rest =>
      ⟨lexeme.token, start, lexeme.spelling.length⟩ ::
        spansFrom (start + lexeme.spelling.length) rest

theorem map_token_spansFrom (start : Nat) (lexemes : List Lexeme) :
    (spansFrom start lexemes).map Span.token = lexemes.map token := by
  induction lexemes generalizing start with
  | nil => rfl
  | cons lexeme rest ih => simp only [spansFrom, List.map_cons, ih]

/-- Whether the lexeme is a number. -/
def isNumber : Lexeme → Bool
  | number .. => true
  | _ => false

/-- Whether the lexeme is a number without a sign. -/
def isUnsigned : Lexeme → Bool
  | number negative _ => !negative
  | _ => false

/-- Whether a minus sign after the lexeme is subtraction: after a number and after `)`. -/
def forbidsSign : Lexeme → Bool
  | number .. | closing => true
  | _ => false

/-- No neighbours are misread: a number without a sign does not follow a number, a number with a sign
follows neither a number nor `)`, and a minus operator in front of a number without a sign follows a
number or `)`. -/
structure Unambiguous (lexemes : List Lexeme) : Prop where
  unsigned : ∀ before first numeral after,
    lexemes = before ++ first :: number false numeral :: after → first.isNumber = false
  signed : ∀ before first numeral after,
    lexemes = before ++ first :: number true numeral :: after →
      first.isNumber = false ∧ first ≠ closing
  minus : ∀ before numeral after,
    lexemes = before ++ binary .minus :: number false numeral :: after →
      ∃ first ∈ before.getLast?, first.isNumber = true ∨ first = closing

/-- What one lexeme asks of the token before it and of the lexeme after it. -/
def Separated (previous : Option Token) (lexeme : Lexeme) (next : Option Lexeme) : Prop :=
  match lexeme with
  | number negative _ =>
      next.any isUnsigned = false ∧ (negative = true → Scan.signAllowed previous = true)
  | binary .minus => next.any isUnsigned = true → Scan.signAllowed previous = false
  | _ => True

/-- What every lexeme of a sequence asks of its neighbours, where the token `previous` comes
before. -/
def SeparatedFrom (previous : Option Token) : List Lexeme → Prop
  | [] => True
  | lexeme :: rest => Separated previous lexeme rest.head? ∧ SeparatedFrom (some lexeme.token) rest

/-- Unsigned numbers are the lexemes that start with a digit. -/
theorem startsWithDigit_spelling (lexeme : Lexeme) (rest : Text) :
    startsWithDigit (lexeme.spelling ++ rest) = lexeme.isUnsigned := by
  cases lexeme with
  | number negative numeral =>
    cases negative with
    | false => exact numeral.startsWithDigit_append rest
    | true => rfl
  | binary operator => cases operator <;> rfl
  | function f => cases f <;> rfl
  | _ => rfl

theorem spelling_ne_nil (lexeme : Lexeme) : lexeme.spelling ≠ [] := by
  cases lexeme with
  | number negative numeral =>
    cases negative <;> simp [spelling, Literal.spelling, numeral.whole_ne_nil]
  | binary operator => cases operator <;> decide
  | function f => cases f <;> decide
  | _ => decide

theorem head_spelling_ne_point (lexeme : Lexeme) (rest : Text) :
    (lexeme.spelling ++ rest).head? ≠ some '.' := by
  cases lexeme with
  | number negative numeral =>
    cases negative with
    | false =>
      intro point
      have digit := numeral.startsWithDigit_append rest
      rw [startsWithDigit, show (numeral.spelling ++ rest).head? = some '.' from point] at digit
      exact absurd digit (by decide)
    | true => simp [spelling]
  | binary operator => cases operator <;> simp [spelling, BinaryOperator.symbol]
  | function f => cases f <;> simp [spelling, Function.name]
  | _ => simp [spelling]

@[simp] theorem spell_cons (lexeme : Lexeme) (rest : List Lexeme) :
    spell (lexeme :: rest) = lexeme.spelling ++ spell rest := rfl

theorem startsWithDigit_spell (lexemes : List Lexeme) :
    startsWithDigit (spell lexemes) = lexemes.head?.any isUnsigned := by
  cases lexemes with
  | nil => rfl
  | cons lexeme rest => exact startsWithDigit_spelling lexeme (spell rest)

theorem head_spell_ne_point (lexemes : List Lexeme) : (spell lexemes).head? ≠ some '.' := by
  cases lexemes with
  | nil => simp [spell]
  | cons lexeme rest => exact head_spelling_ne_point lexeme (spell rest)

section Step

variable {rest : List Lexeme}

private theorem atStart_spell (numeral : Numeral) (separate : rest.head?.any isUnsigned = false) :
    Literal.atStart (numeral.spelling ++ spell rest) = numeral.toLiteral := by
  rw [← startsWithDigit_spell] at separate
  rw [Literal.atStart_append _ separate (head_spell_ne_point rest), numeral.atStart_spelling]

private theorem length_ne_atStart_spell (numeral : Numeral)
    (joined : rest.head?.any isUnsigned = true) :
    (Literal.atStart (numeral.spelling ++ spell rest)).spelling.length ≠
      numeral.spelling.length := by
  rw [← startsWithDigit_spell] at joined
  exact Nat.ne_of_gt (numeral.length_lt_atStart joined)

private theorem lexeme?_unsigned_iff (previous : Option Token) (numeral : Numeral) :
    Scan.lexeme? previous (numeral.spelling ++ spell rest) =
        some (.number numeral.value false, numeral.spelling.length) ↔
      rest.head?.any isUnsigned = false := by
  rw [Scan.lexeme?_digit (numeral.startsWithDigit_append _)]
  cases joined : rest.head?.any isUnsigned with
  | false => simp [atStart_spell numeral joined]
  | true => simp [length_ne_atStart_spell numeral joined]

private theorem lexeme?_signed_iff (previous : Option Token) (numeral : Numeral) :
    Scan.lexeme? previous ('-' :: (numeral.spelling ++ spell rest)) =
        some (.number (-numeral.value) false, numeral.spelling.length + 1) ↔
      rest.head?.any isUnsigned = false ∧ Scan.signAllowed previous = true := by
  rw [Scan.lexeme?_minus, numeral.startsWithDigit_append]
  cases Scan.signAllowed previous with
  | false => simp [Token.binary]
  | true =>
    cases joined : rest.head?.any isUnsigned with
    | false => simp [atStart_spell numeral joined]
    | true => simp [length_ne_atStart_spell numeral joined]

private theorem lexeme?_minus_iff (previous : Option Token) :
    Scan.lexeme? previous ('-' :: spell rest) = some (.binary .minus, 1) ↔
      (rest.head?.any isUnsigned = true → Scan.signAllowed previous = false) := by
  rw [Scan.lexeme?_minus, startsWithDigit_spell]
  cases rest.head?.any isUnsigned <;> cases Scan.signAllowed previous <;> simp [Token.binary]

/-- The scanner reads a lexeme exactly when it is separated from its neighbours. -/
theorem lexeme?_spelling_iff (previous : Option Token) (lexeme : Lexeme) :
    Scan.lexeme? previous (lexeme.spelling ++ spell rest) =
        some (lexeme.token, lexeme.spelling.length) ↔
      Separated previous lexeme rest.head? := by
  cases lexeme with
  | number negative numeral =>
    cases negative with
    | false => simpa [Separated, spelling, token] using lexeme?_unsigned_iff previous numeral
    | true => simpa [Separated, spelling, token] using lexeme?_signed_iff previous numeral
  | binary operator =>
    cases operator with
    | minus => exact lexeme?_minus_iff previous
    | _ => exact iff_of_true rfl trivial
  | function f => cases f <;> exact iff_of_true rfl trivial
  | _ => exact iff_of_true rfl trivial

end Step

/-- Scanning on after the token `previous` gives every lexeme back exactly when each is separated. -/
theorem spansFrom_spell_iff (previous : Option Token) (start : Nat) (lexemes : List Lexeme) :
    Scan.spansFrom previous start (spell lexemes) = spansFrom start lexemes ↔
      SeparatedFrom previous lexemes := by
  induction lexemes generalizing previous start with
  | nil => simp [spell, Scan.spansFrom, spansFrom, SeparatedFrom]
  | cons lexeme rest ih =>
    rw [spell_cons, spansFrom, Scan.spansFrom_eq_cons_iff lexeme.spelling_ne_nil,
      lexeme?_spelling_iff]
    exact and_congr_right fun _ => ih (some lexeme.token) _

/-- Every lexeme of a sequence is separated when each is so at its own place. -/
theorem separatedFrom_iff (previous : Option Token) (lexemes : List Lexeme) :
    SeparatedFrom previous lexemes ↔
      ∀ before lexeme after, lexemes = before ++ lexeme :: after →
        Separated (Scan.lastFrom token previous before) lexeme after.head? := by
  induction lexemes generalizing previous with
  | nil => simp [SeparatedFrom]
  | cons first rest ih =>
    rw [SeparatedFrom, ih]
    constructor
    · rintro ⟨here, later⟩ before lexeme after split
      cases before with
      | nil =>
        obtain ⟨rfl, rfl⟩ := List.cons.inj split
        exact here
      | cons head before =>
        obtain ⟨rfl, rfl⟩ := List.cons.inj split
        rw [Scan.lastFrom_cons]
        exact later before lexeme after rfl
    · intro everywhere
      refine ⟨everywhere [] first rest rfl, ?_⟩
      intro before lexeme after split
      rw [← Scan.lastFrom_cons]
      exact everywhere (first :: before) lexeme after (by rw [split, List.cons_append])

theorem signAllowed_token (lexeme : Lexeme) :
    Scan.signAllowed (some lexeme.token) = !lexeme.forbidsSign := by
  cases lexeme with
  | number negative numeral => cases negative <;> rfl
  | _ => rfl

theorem forbidsSign_eq_false_iff (lexeme : Lexeme) :
    lexeme.forbidsSign = false ↔ lexeme.isNumber = false ∧ lexeme ≠ closing := by
  cases lexeme <;> simp [forbidsSign, isNumber]

theorem forbidsSign_iff (lexeme : Lexeme) :
    lexeme.forbidsSign = true ↔ lexeme.isNumber = true ∨ lexeme = closing := by
  cases lexeme <;> simp [forbidsSign, isNumber]

theorem isUnsigned_iff (lexeme : Lexeme) :
    lexeme.isUnsigned = true ↔ ∃ numeral, lexeme = number false numeral := by
  cases lexeme <;> simp [isUnsigned]

private theorem unambiguous_of_separated {lexemes : List Lexeme}
    (separated : ∀ before lexeme after, lexemes = before ++ lexeme :: after →
      Separated (before.getLast?.map token) lexeme after.head?) : Unambiguous lexemes where
  unsigned before first numeral after split := by
    cases first with
    | number negative other =>
      have joined := (separated before _ _ split).1
      simp [isUnsigned] at joined
    | _ => rfl
  signed before first numeral after split := by
    have signed := separated (before ++ [first]) (number true numeral) after (by simp [split])
    have allowed : Scan.signAllowed (some first.token) = true := by simpa using signed.2 rfl
    rw [signAllowed_token, Bool.not_eq_true'] at allowed
    exact first.forbidsSign_eq_false_iff.mp allowed
  minus before numeral after split := by
    have subtraction : Scan.signAllowed (before.getLast?.map token) = false :=
      separated before _ _ split rfl
    cases last : before.getLast? with
    | none => simp [last, Scan.signAllowed] at subtraction
    | some first =>
      rw [last, Option.map_some, signAllowed_token, Bool.not_eq_false'] at subtraction
      exact ⟨first, rfl, first.forbidsSign_iff.mp subtraction⟩

private theorem Unambiguous.separated {lexemes : List Lexeme} (unambiguous : Unambiguous lexemes)
    {before after : List Lexeme} {lexeme : Lexeme} (split : lexemes = before ++ lexeme :: after) :
    Separated (before.getLast?.map token) lexeme after.head? := by
  cases lexeme with
  | number negative numeral =>
    constructor
    · cases after with
      | nil => rfl
      | cons next after =>
        apply Bool.eq_false_iff.mpr
        intro follows
        obtain ⟨other, rfl⟩ := next.isUnsigned_iff.mp follows
        exact Bool.noConfusion (unambiguous.unsigned before _ other after split)
    · rintro rfl
      cases last : before.getLast? with
      | none => rfl
      | some first =>
        obtain ⟨init, rfl⟩ := List.getLast?_eq_some_iff.mp last
        have apart := unambiguous.signed init first numeral after (by simp [split])
        rw [Option.map_some, signAllowed_token, first.forbidsSign_eq_false_iff.mpr apart]
        rfl
  | binary operator =>
    cases operator with
    | minus =>
      intro follows
      cases after with
      | nil => cases follows
      | cons next after =>
        obtain ⟨numeral, rfl⟩ := next.isUnsigned_iff.mp follows
        obtain ⟨first, last, ends⟩ := unambiguous.minus before numeral after split
        rw [last, Option.map_some, signAllowed_token, first.forbidsSign_iff.mpr ends]
        rfl
    | _ => trivial
  | _ => trivial

/-- Neighbours are unambiguous exactly when every lexeme is separated from its own. -/
theorem separatedFrom_none_iff (lexemes : List Lexeme) :
    SeparatedFrom none lexemes ↔ Unambiguous lexemes := by
  simp only [separatedFrom_iff, Scan.lastFrom_none]
  constructor
  · exact unambiguous_of_separated
  · intro unambiguous before lexeme after split
    exact unambiguous.separated split

/-- Scanning a spelled text gives every lexeme back, in its place, exactly when no neighbours can be
misread. -/
theorem scan_spell_iff (lexemes : List Lexeme) :
    scan (spell lexemes) = spansFrom 0 lexemes ↔ Unambiguous lexemes :=
  (spansFrom_spell_iff none 0 lexemes).trans (separatedFrom_none_iff lexemes)

end Lexeme

end Calculator
