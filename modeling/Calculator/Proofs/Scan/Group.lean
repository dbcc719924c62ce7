import Calculator.Proofs.Scan.Append
import Calculator.Proofs.Scan.RoundTrip

/-! # Scanning a text in parentheses

Parentheses keep a text to itself: behind `(` it is scanned as at the very beginning, since a sign is
allowed in both places, and no lexeme reaches across `)`. This holds of every text, whether it spells
tokens or not.
-/

namespace Calculator

/-- A text in parentheses. -/
def parenthesized (text : Text) : Text := '(' :: (text ++ [')'])

namespace Scan

variable {previous other : Option Token} {text : Text}

/-- Of the token before a text only one thing matters: whether a sign is allowed after it. -/
theorem lexeme?_congr (same : signAllowed previous = signAllowed other) (text : Text) :
    lexeme? previous text = lexeme? other text := by
  cases text with
  | nil => rfl
  | cons c rest => rw [lexeme?, lexeme?, same]

/-- The tokens of a text depend neither on its place nor on more than whether it may start with a
sign. -/
theorem map_token_spansFrom_congr (same : signAllowed previous = signAllowed other)
    (start place : Nat) :
    (spansFrom previous start text).map Span.token = (spansFrom other place text).map Span.token := by
  fun_induction spansFrom previous start text generalizing other place with
  | case1 => simp [spansFrom]
  | case2 previous start c rest skipped ih =>
    rw [lexeme?_congr same] at skipped
    rw [spansFrom, skipped]
    exact ih same (place + 1)
  | case3 previous start c rest token length read ih =>
    rw [lexeme?_congr same] at read
    rw [spansFrom, read]
    simp only [List.map_cons]
    rw [ih rfl (place + length)]

end Scan

namespace Lexeme

/-- A lexeme that is no number is read in front of any text that does not start with a digit. -/
theorem lexeme?_symbol (previous : Option Token) {lexeme : Lexeme} (symbol : lexeme.isNumber = false)
    {rest : Text} (apart : startsWithDigit rest = false) :
    Scan.lexeme? previous (lexeme.spelling ++ rest) =
      some (lexeme.token, lexeme.spelling.length) := by
  cases lexeme with
  | number => cases symbol
  | binary operator =>
    cases operator with
    | minus =>
      change Scan.lexeme? previous ('-' :: rest) = _
      rw [Scan.lexeme?_minus, apart]
      rfl
    | _ => rfl
  | function f => cases f <;> rfl
  | _ => rfl

/-- The tokens of a text with a group in it: those of the symbols in front, the group of what the
text in parentheses has by itself, and what follows. -/
theorem map_token_spansFrom_parenthesized (previous : Option Token) (start : Nat)
    {front : List Lexeme} (symbols : ∀ lexeme ∈ front, lexeme.isNumber = false) (text rest : Text) :
    (Scan.spansFrom previous start (spell front ++ (parenthesized text ++ rest))).map Span.token =
      front.map token ++ (Token.grouped ((scan text).map Span.token) ++
        (Scan.spansFrom (some .closing) 0 rest).map Span.token) := by
  induction front generalizing previous start with
  | nil =>
    have opens : Scan.lexeme? previous (['('] ++ (text ++ ([')'] ++ rest))) =
        some (.opening, ['('].length) := rfl
    have closes (last : Option Token) : Scan.lexeme? last ([')'] ++ rest) =
        some (.closing, [')'].length) := rfl
    have split : spell [] ++ (parenthesized text ++ rest) = ['('] ++ (text ++ ([')'] ++ rest)) := by
      simp [spell, parenthesized]
    rw [split, Scan.spansFrom_of_lexeme? (by simp) opens, Scan.spansFrom_append rfl,
      Scan.spansFrom_of_lexeme? (by simp) (closes _)]
    have sign : Scan.signAllowed (some .opening) = Scan.signAllowed none := rfl
    have inside : (Scan.spansFrom (some .opening) (start + ['('].length) text).map Span.token =
        (scan text).map Span.token := Scan.map_token_spansFrom_congr sign _ _
    simp only [List.map_cons, List.map_append, List.map_nil, inside, Token.grouped, List.nil_append,
      List.cons_append, List.append_assoc]
    rw [Scan.map_token_spansFrom_congr rfl _ 0]
  | cons lexeme front ih =>
    obtain ⟨symbol, symbols⟩ := List.forall_mem_cons.mp symbols
    have apart : startsWithDigit (spell front ++ (parenthesized text ++ rest)) = false := by
      cases front with
      | nil => rfl
      | cons next front =>
        obtain ⟨nextSymbol, -⟩ := List.forall_mem_cons.mp symbols
        rw [spell_cons, List.append_assoc, startsWithDigit_spelling]
        cases next <;> first | rfl | cases nextSymbol
    rw [spell_cons, List.append_assoc,
      Scan.spansFrom_of_lexeme? lexeme.spelling_ne_nil (lexeme?_symbol previous symbol apart)]
    simp only [List.map_cons, ih _ _ symbols, List.cons_append]

end Lexeme

end Calculator
