import Calculator.Buffer.Parentheses
import Calculator.Proofs.Evaluation.Accounting
import Calculator.Proofs.Percent
import Calculator.Proofs.Product
import Calculator.Proofs.Scan.Append

/-! # From parentheses in a text to parenthesis tokens

Whatever surrounds it, a parenthesis character is scanned as one token, and no other character
contributes one. Neither pass over the percent signs nor the insertion of products adds or drops any.
So counts of parentheses can be carried from a text to the tokens that are evaluated, for every
prefix at once.
-/

namespace Calculator

/-- The two parentheses. -/
inductive Parenthesis where
  | opening
  | closing
deriving DecidableEq

/-- The character of a parenthesis. -/
def Parenthesis.character : Parenthesis → Char
  | opening => '('
  | closing => ')'

/-- Whether a token is a parenthesis of the kind. -/
def Parenthesis.test : Parenthesis → Token → Bool
  | opening => Token.isOpenParen
  | closing => Token.isCloseParen

/-- The parenthesis that a character is. -/
def parenthesis? (c : Char) : Option Parenthesis :=
  if c = '(' then some .opening else if c = ')' then some .closing else none

/-- The parenthesis that a token is. -/
def Token.parenthesis? : Token → Option Parenthesis
  | openParen _ => some .opening
  | closeParen _ => some .closing
  | _ => none

namespace Scan

variable {previous : Option Token} {start : Nat} {text : Text} {token : Token} {length : Nat}

theorem parenthesis?_eq_none_of_isDigit {c : Char} (digit : c.isDigit = true) :
    parenthesis? c = none := by
  have noOpening : c ≠ '(' := by
    rintro rfl
    exact absurd digit (by decide)
  have noClosing : c ≠ ')' := by
    rintro rfl
    exact absurd digit (by decide)
  simp [parenthesis?, noOpening, noClosing]

/-- There is no parenthesis in a numeral. -/
theorem filterMap_spelling (numeral : Numeral) : numeral.spelling.filterMap parenthesis? = [] := by
  refine List.filterMap_eq_nil_iff.mpr fun c member => ?_
  rcases numeral.isDigit_or_point member with digit | rfl
  · exact parenthesis?_eq_none_of_isDigit digit
  · rfl

private theorem parenthesis?_symbol {c : Char} (symbol : symbol? c = some token) :
    token.parenthesis? = parenthesis? c := by
  unfold symbol? at symbol
  split_ifs at symbol with opens closes
  · cases symbol
    simp [opens, parenthesis?, Token.opening, Token.parenthesis?]
  · cases symbol
    simp [closes, parenthesis?, Token.closing, Token.parenthesis?]
  · cases symbol
    simp [opens, closes, parenthesis?, Token.parenthesis?]

private theorem parenthesis?_words :
    ∀ word ∈ words, word.1.filterMap parenthesis? = [] ∧ word.2.parenthesis? = none := by
  decide

/-- A step reads a parenthesis exactly where it makes a parenthesis token. -/
theorem Reads.filterMap_parenthesis? {first back : Text} (reads : Reads previous back first token) :
    first.filterMap parenthesis? = token.parenthesis?.toList := by
  cases reads with
  | number numeral => exact filterMap_spelling numeral
  | negative numeral => exact (List.filterMap_cons_none rfl).trans (filterMap_spelling numeral)
  | symbol known =>
    rw [parenthesis?_symbol known]
    cases found : parenthesis? _ <;> simp [found]
  | word known =>
    obtain ⟨noCharacter, noToken⟩ := parenthesis?_words _ known
    rw [noCharacter, noToken]
    rfl

/-- A character that is skipped is no parenthesis. -/
theorem parenthesis?_of_lexeme?_eq_none {c : Char} {rest : Text}
    (skipped : lexeme? previous (c :: rest) = none) : parenthesis? c = none := by
  have noOpening : c ≠ '(' := by
    rintro rfl
    cases skipped
  have noClosing : c ≠ ')' := by
    rintro rfl
    cases skipped
  simp [parenthesis?, noOpening, noClosing]

/-- The scanner finds every parenthesis of the text, in order, and no other. -/
theorem filterMap_parenthesis?_spansFrom (previous : Option Token) (start : Nat) (text : Text) :
    ((spansFrom previous start text).map Span.token).filterMap Token.parenthesis? =
      text.filterMap parenthesis? := by
  fun_induction spansFrom previous start text with
  | case1 => rfl
  | case2 previous start c rest skipped ih =>
    rw [ih, List.filterMap_cons_none (parenthesis?_of_lexeme?_eq_none skipped)]
  | case3 previous start c rest token length read ih =>
    obtain ⟨first, split, rfl, nonempty⟩ := exists_append_drop_of_lexeme? read
    generalize rest.drop (first.length - 1) = later at ih split ⊢
    rw [split] at read
    have taken := (reads_of_lexeme? read).filterMap_parenthesis?
    rw [split, List.filterMap_append, taken, ← ih, List.map_cons, List.filterMap_cons]
    cases token.parenthesis? <;> rfl

end Scan

/-- Telling percent signs from remainders leaves the parentheses. -/
theorem Percent.filterMap_parenthesis?_disambiguateFrom (previous : Option Token)
    (tokens : List Token) :
    (disambiguateFrom previous tokens).filterMap Token.parenthesis? =
      tokens.filterMap Token.parenthesis? := by
  induction tokens generalizing previous with
  | nil => rfl
  | cons token rest ih =>
    rw [disambiguateFrom_cons]
    split_ifs with between
    · obtain ⟨rfl, -⟩ := between
      rw [List.filterMap_cons_none rfl, List.filterMap_cons_none rfl, ih]
    · simp only [List.filterMap_cons, ih]

theorem Percent.filterMap_parenthesis?_fold (tokens : List Token) :
    (fold tokens).filterMap Token.parenthesis? = tokens.filterMap Token.parenthesis? := by
  fun_induction fold tokens with
  | case1 => rfl
  | case2 value rest ih =>
    rw [List.filterMap_cons_none rfl, List.filterMap_cons_none rfl, List.filterMap_cons_none rfl, ih]
  | case3 token rest other ih => simp only [List.filterMap_cons, ih]

theorem Product.filterMap_parenthesis?_insertMissing (tokens : List Token) :
    (insertMissing tokens).filterMap Token.parenthesis? = tokens.filterMap Token.parenthesis? := by
  fun_induction insertMissing tokens with
  | case1 first second rest missing ih =>
    have noParenthesis : Token.times.parenthesis? = none := rfl
    simp only [List.filterMap_cons, noParenthesis, ih]
  | case2 first second rest present ih => simp only [List.filterMap_cons, ih]
  | case3 => rfl

/-- The tokens that are evaluated have the parentheses of the text. -/
theorem filterMap_parenthesis?_writtenTokens (text : Text) :
    (writtenTokens text).filterMap Token.parenthesis? = text.filterMap parenthesis? := by
  rw [writtenTokens, Product.filterMap_parenthesis?_insertMissing, tokenize,
    Percent.filterMap_parenthesis?_fold, Percent.disambiguate,
    Percent.filterMap_parenthesis?_disambiguateFrom, scan, Scan.filterMap_parenthesis?_spansFrom]

namespace Parenthesis

theorem countP_test (parenthesis : Parenthesis) (tokens : List Token) :
    tokens.countP parenthesis.test = (tokens.filterMap Token.parenthesis?).count parenthesis := by
  rw [List.count_filterMap]
  refine List.countP_congr fun token _ => ?_
  cases parenthesis <;> cases token <;>
    simp [test, Token.isOpenParen, Token.isCloseParen, Token.parenthesis?]

theorem count_character (parenthesis : Parenthesis) (text : Text) :
    text.count parenthesis.character = (text.filterMap parenthesis?).count parenthesis := by
  rw [List.count_filterMap, List.count]
  refine List.countP_congr fun c _ => ?_
  unfold parenthesis?
  cases parenthesis <;> split_ifs with opens closes <;> simp [character, *]

/-- Texts and tokens with the same parentheses count the same. -/
theorem countP_eq_count {tokens : List Token} {text : Text}
    (same : tokens.filterMap Token.parenthesis? = text.filterMap parenthesis?)
    (parenthesis : Parenthesis) : tokens.countP parenthesis.test = text.count parenthesis.character := by
  rw [countP_test, count_character, same]

end Parenthesis

/-- No prefix of the text closes more parentheses than it opens. -/
def NeverOvercloses (text : Text) : Prop :=
  ∀ front, front <+: text → front.count ')' ≤ front.count '('

instance : DecidablePred NeverOvercloses := fun text =>
  decidable_of_iff (∀ front ∈ text.inits, front.count ')' ≤ front.count '(') (by
    simp only [NeverOvercloses, List.mem_inits])

/-- A text closes too many parentheses exactly if its tokens do, and at the same place. -/
theorem neverOvercloses_writtenTokens {text : Text} :
    Token.NeverOvercloses (writtenTokens text) ↔ NeverOvercloses text := by
  have written := filterMap_parenthesis?_writtenTokens text
  constructor
  · intro never front inside
    obtain ⟨tokens, part, same⟩ :
        ∃ tokens, tokens <+: writtenTokens text ∧
          front.filterMap parenthesis? = tokens.filterMap Token.parenthesis? :=
      List.prefix_filterMap_iff.mp (written ▸ inside.filterMap parenthesis?)
    have counts := Parenthesis.countP_eq_count same.symm
    have below := never tokens part
    exact counts .opening ▸ counts .closing ▸ below
  · intro never tokens inside
    obtain ⟨front, part, same⟩ :
        ∃ front, front <+: text ∧
          tokens.filterMap Token.parenthesis? = front.filterMap parenthesis? :=
      List.prefix_filterMap_iff.mp (written ▸ inside.filterMap Token.parenthesis?)
    have counts := Parenthesis.countP_eq_count same
    have below := never front part
    exact counts .opening ▸ counts .closing ▸ below

/-- The tokens are balanced exactly if the text is. -/
theorem balanced_writtenTokens {text : Text} :
    Token.Balanced (writtenTokens text) ↔ NeverOvercloses text ∧ text.count '(' = text.count ')' := by
  have counts := Parenthesis.countP_eq_count (filterMap_parenthesis?_writtenTokens text)
  have opens : (writtenTokens text).countP Token.isOpenParen = text.count '(' := counts .opening
  have closes : (writtenTokens text).countP Token.isCloseParen = text.count ')' := counts .closing
  rw [Token.balanced_iff, neverOvercloses_writtenTokens, opens, closes]

section Closed

variable {text : Text}

private theorem count_append_replicate (text : Text) (more : Nat) :
    (text ++ List.replicate more ')').count ')' = text.count ')' + more ∧
      (text ++ List.replicate more ')').count '(' = text.count '(' := by
  simp [List.count_replicate]

/-- Closing at the end what is open closes too much only if the text did. -/
theorem neverOvercloses_balanceParentheses :
    NeverOvercloses (balanceParentheses text) ↔ NeverOvercloses text := by
  constructor
  · intro never front inside
    exact never front (inside.trans (List.prefix_append ..))
  · rintro never front ⟨rest, split⟩
    rcases List.append_eq_append_iff.mp split with ⟨later, rfl, -⟩ | ⟨added, rfl, closing⟩
    · exact never front (List.prefix_append ..)
    · obtain ⟨few, closing⟩ := List.prefix_replicate_iff.mp ⟨rest, closing.symm⟩
      obtain ⟨closes, opens⟩ := count_append_replicate text added.length
      have before := never text (List.prefix_refl text)
      rw [closing, closes, opens]
      omega

/-- Unless a text closes too much, what it lacks is exactly what is supplied. -/
theorem balanced_balanceParentheses (never : NeverOvercloses text) :
    Token.Balanced (writtenTokens (balanceParentheses text)) := by
  refine balanced_writtenTokens.mpr ⟨neverOvercloses_balanceParentheses.mpr never, ?_⟩
  obtain ⟨closes, opens⟩ := count_append_replicate text (text.count '(' - text.count ')')
  have before := never text (List.prefix_refl text)
  rw [balanceParentheses, closes, opens]
  omega

end Closed

end Calculator
