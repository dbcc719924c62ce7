import Calculator.Proofs.Scan.Cut
import Mathlib.Data.List.Pairwise

/-! # What a scan tells about its text

The scanner drops what it does not know, so spans leave gaps. All the same they are a faithful account of
any text: each one spells its token and takes as much as belongs to it, and nothing that could have been
read starts in a gap. Whether a minus sign in front of a digit is the sign of a number is decided by the
span before it, however wide the gap in between.
-/

namespace Calculator

namespace Span

/-- A place of the text lies in the span. -/
def Covers (span : Span) (place : Nat) : Prop := span.start ≤ place ∧ place < span.stop

/-- The characters that the span is read from. -/
def slice (span : Span) (text : Text) : Text := (text.drop span.start).take span.length

theorem slice_append_drop (span : Span) (text : Text) :
    span.slice text ++ text.drop span.stop = text.drop span.start := by
  rw [slice, stop, ← List.drop_drop, List.take_append_drop]

end Span

/-- How a text spells a token: a number as a numeral, possibly with a minus sign that negates it, and any
other token as its symbol. -/
inductive Spells : Text → Token → Prop
  | number (numeral : Numeral) : Spells numeral.spelling (.number numeral.value false)
  | negative (numeral : Numeral) : Spells ('-' :: numeral.spelling) (.number (-numeral.value) false)
  | symbol {token : Token} {symbol : String} (named : token.symbol? = some symbol) :
      Spells symbol.toList token

theorem Spells.eq_toList {text : Text} {token : Token} {symbol : String} (spells : Spells text token)
    (named : token.symbol? = some symbol) : text = symbol.toList := by
  cases spells with
  | number | negative => cases named
  | symbol same =>
    obtain rfl := Option.some.inj (same.symm.trans named)
    rfl

/-- Nothing behind a number belongs to it: what comes next is not a digit, nor, if the number has no point,
a point and a digit. -/
def EndsNumber (number rest : Text) : Prop :=
  startsWithDigit rest = false ∧
    ('.' ∉ number → ∀ after, rest = '.' :: after → startsWithDigit after = false)

namespace Scan

variable {previous : Option Token} {start : Nat} {text front back first : Text} {token : Token}

/-- The characters that are tokens wherever they stand. -/
def knownCharacters : Text := ['+', '-', 'x', '÷', '%', '(', ')', '^', '!', 'π']

private theorem symbol_or_pi {c : Char} (known : c ∈ knownCharacters) : symbol? c ≠ none ∨ c = 'π' := by
  have all : knownCharacters.all (fun c => (symbol? c).isSome || c == 'π') = true := by decide
  simpa [Option.ne_none_iff_isSome] using List.all_eq_true.mp all c known

/-! ### What a step reads -/

private theorem symbol?_of_words : ∀ word ∈ words, word.2.symbol? = some (String.ofList word.1) := by
  decide

private theorem symbol?_of_symbol? {c : Char} (known : symbol? c = some token) :
    token.symbol? = some (String.ofList [c]) := by
  unfold symbol? at known
  split_ifs at known with opens closes
  · cases known
    rw [opens]
    rfl
  · cases known
    rw [closes]
    rfl
  · cases known
    rfl

/-- A step takes the characters that spell its token. -/
theorem Reads.spells (reads : Reads previous back first token) : Spells first token := by
  have spelled (named : token.symbol? = some (String.ofList first)) : Spells first token := by
    simpa using Spells.symbol named
  cases reads with
  | number numeral => exact .number numeral
  | negative numeral => exact .negative numeral
  | symbol known => exact spelled (symbol?_of_symbol? known)
  | word known => exact spelled (symbol?_of_words _ known)

/-- A step that reads a number leaves nothing of it behind. -/
theorem Reads.endsNumber (reads : Reads previous back first token) (number : token.isNumber = true) :
    EndsNumber first back := by
  have complete {numeral : Numeral}
      (ends : Literal.atStart (numeral.spelling ++ back) = numeral.toLiteral) :
      EndsNumber numeral.spelling back := by
    refine ⟨Numeral.startsWithDigit_behind ends, ?_⟩
    rintro noPoint after rfl
    exact Numeral.startsWithDigit_behind_point ends noPoint
  cases reads with
  | number numeral ends => exact complete ends
  | negative numeral ends =>
    refine (complete ends).imp_right fun afterPoint noPoint => afterPoint fun point => noPoint ?_
    exact List.mem_cons_of_mem _ point
  | symbol known => exact absurd ((noNumber_of_symbol? known).2.symm.trans number) Bool.false_ne_true
  | word known => exact absurd ((words_noNumber _ known).symm.trans number) Bool.false_ne_true

/-- A number is read with a minus sign only where one is allowed. -/
theorem Reads.signAllowed_of_head? (reads : Reads previous back first token)
    (number : token.isNumber = true) (minus : first.head? = some '-') : signAllowed previous = true := by
  obtain ⟨negative, digits, unsigned, rfl, -, allowed⟩ := reads.exists_signed number
  cases negative with
  | true => exact allowed rfl
  | false =>
    have digit := Operand.startsWithDigit_of_isUnsigned unsigned
    rw [Operand.signed, if_neg Bool.false_ne_true] at minus
    rw [startsWithDigit, minus] at digit
    cases digit

/-- A minus sign in front of a digit is read as subtraction only where no sign is allowed. -/
theorem signAllowed_of_lexeme?_minus {length : Nat}
    (read : lexeme? previous ('-' :: back) = some (Token.binary .minus, length))
    (digit : startsWithDigit back = true) : signAllowed previous = false := by
  refine Bool.eq_false_iff.mpr fun allowed => ?_
  rw [lexeme?_minus, if_pos ⟨digit, allowed⟩] at read
  cases read

theorem signAllowed_some (token : Token) :
    signAllowed (some token) = !(token.isNumber || token.isCloseParen) := by
  cases token <;> rfl

/-- The only closing parenthesis is `)`. -/
theorem Reads.eq_closing (reads : Reads previous back first token)
    (closes : token.isCloseParen = true) : token = .closing := by
  have none : ∀ word ∈ words, word.2.isCloseParen = false := by decide
  cases reads with
  | number | negative => cases closes
  | symbol known =>
    unfold symbol? at known
    split_ifs at known <;> cases known <;> first | rfl | cases closes
  | word known => exact absurd ((none _ known).symm.trans closes) Bool.false_ne_true

/-- Spans do not overlap, and later ones stand behind earlier ones. -/
theorem pairwise_spansFrom (previous : Option Token) (start : Nat) (text : Text) :
    (spansFrom previous start text).Pairwise fun first second => first.stop ≤ second.start := by
  fun_induction spansFrom previous start text with
  | case1 => exact .nil
  | case2 previous start c rest skipped ih => exact ih
  | case3 previous start c rest token length read ih =>
    exact List.pairwise_cons.mpr ⟨fun span later => le_start_of_mem_spansFrom later, ih⟩

end Scan

section Text

variable {text front back : Text} {earlier later spans : List Span} {span other : Span} {place : Nat}
  {c : Char}

/-- Each span is what the scanner reads at its place, given the token of the span before it. -/
theorem lexeme?_of_scan (split : scan text = earlier ++ span :: later) :
    Scan.lexeme? (earlier.getLast?.map Span.token) (text.drop span.start) =
      some (span.token, span.length) := by
  obtain ⟨front, back, rfl, rfl, place, -, read⟩ := exists_cut_of_scan split
  rw [place, List.drop_left, ← List.getLast?_map]
  exact read

/-- Each span is what a step reads at its place, given the token in front of it. -/
theorem reads_of_scan (split : scan text = earlier ++ span :: later) :
    Scan.Reads (earlier.getLast?.map Span.token) (text.drop span.stop) (span.slice text)
      span.token := by
  obtain ⟨first, back, parts, length, reads⟩ := Scan.exists_reads_of_lexeme? (lexeme?_of_scan split)
  have slice : span.slice text = first := by rw [Span.slice, parts, length, List.take_left]
  have rest : text.drop span.stop = back := by
    rw [Span.stop, ← List.drop_drop, parts, length, List.drop_left]
  rwa [slice, rest]

/-- A minus operator in front of a digit stands behind a token that no sign may follow. -/
theorem signAllowed_of_scan_minus (split : scan text = earlier ++ span :: later)
    (minus : span.token = .binary .minus) (digit : startsWithDigit (text.drop span.stop) = true) :
    Scan.signAllowed (earlier.getLast?.map Span.token) = false := by
  have slice : span.slice text = ['-'] := by
    have spells := (reads_of_scan split).spells
    rw [minus] at spells
    exact spells.eq_toList rfl
  have parts : text.drop span.start = '-' :: text.drop span.stop := by
    rw [← span.slice_append_drop, slice, List.singleton_append]
  have read := lexeme?_of_scan split
  rw [parts, minus] at read
  exact Scan.signAllowed_of_lexeme?_minus read digit

/-- At a place that no span covers nothing can be read. -/
theorem lexeme?_of_uncovered
    (uncovered : ∀ span ∈ scan (front ++ back), ¬ span.Covers front.length) :
    Scan.lexeme? (lastToken? front) back = none := by
  have cut : Scan.Cut none front back := Scan.cut_of_outside fun span member => by
    have outside := uncovered span member
    rw [Span.Covers] at outside
    omega
  -- The scan comes to this place, so what could be read here would be one of its spans.
  cases read : Scan.lexeme? (lastToken? front) back with
  | none => rfl
  | some lexeme =>
    obtain ⟨token, length⟩ := lexeme
    obtain ⟨first, rest, rfl, rfl, reads⟩ := Scan.exists_reads_of_lexeme? read
    have here : ⟨token, front.length, first.length⟩ ∈ scan (front ++ (first ++ rest)) := by
      rw [cut.scan_append, Scan.spansFrom_of_lexeme? reads.ne_nil read]
      exact List.mem_append_right _ (List.mem_cons_self ..)
    have some := List.length_pos_iff.mpr reads.ne_nil
    exact absurd ⟨Nat.le_refl _, Nat.lt_add_of_pos_right some⟩ (uncovered _ here)

/-- What is covered by no span is unknown: no digit, no symbol, and not the start of a word. -/
theorem unknown_of_uncovered (inside : place < text.length)
    (uncovered : ¬ ∃ span ∈ scan text, span.Covers place) :
    text[place].isDigit = false ∧ Scan.symbol? text[place] = none ∧
      ∀ word ∈ Scan.words, ¬ word.1 <+: text.drop place := by
  have split : text.take place ++ text.drop place = text := List.take_append_drop place text
  have skipped : Scan.lexeme? (lastToken? (text.take place)) (text.drop place) = none := by
    refine lexeme?_of_uncovered fun span member covers => uncovered ?_
    rw [split] at member
    rw [List.length_take_of_le inside.le] at covers
    exact ⟨span, member, covers⟩
  rw [List.drop_eq_getElem_cons inside] at skipped ⊢
  obtain ⟨noDigit, noSymbol, noWord⟩ := Scan.unknown_of_skipped skipped
  exact ⟨noDigit, noSymbol, Scan.word?_eq_none_iff.mp noWord⟩

/-- A word is covered where it starts. -/
theorem exists_covers_of_word {word : Text × Token} (known : word ∈ Scan.words)
    (starts : word.1 <+: text.drop place) : ∃ span ∈ scan text, span.Covers place := by
  by_contra uncovered
  have inside : place < text.length := by
    by_contra beyond
    rw [List.drop_of_length_le (Nat.le_of_not_lt beyond), List.prefix_nil] at starts
    exact Scan.words_ne_nil word known starts
  exact (unknown_of_uncovered inside uncovered).2.2 word known starts

/-- A character that is a token wherever it stands is covered. -/
theorem exists_covers_of_known (here : text[place]? = some c)
    (known : c.isDigit = true ∨ c ∈ Scan.knownCharacters) : ∃ span ∈ scan text, span.Covers place := by
  obtain ⟨inside, rfl⟩ := List.getElem?_eq_some_iff.mp here
  by_contra uncovered
  obtain ⟨noDigit, noSymbol, noWord⟩ := unknown_of_uncovered inside uncovered
  rcases known with digit | known
  · exact absurd (noDigit.symm.trans digit) Bool.false_ne_true
  · rcases Scan.symbol_or_pi known with symbol | pi
    · exact symbol noSymbol
    · refine noWord ("π".toList, .pi) (by decide) ?_
      rw [List.drop_eq_getElem_cons inside, pi]
      exact List.prefix_append ['π'] _

/-- Of spans that do not overlap only one covers a place. -/
theorem eq_of_covers (ordered : spans.Pairwise fun first second => first.stop ≤ second.start)
    (member : span ∈ spans) (otherMember : other ∈ spans) (covers : span.Covers place)
    (otherCovers : other.Covers place) : span = other := by
  by_contra differ
  have symmetric : Std.Symm fun first second : Span =>
      first.stop ≤ second.start ∨ second.stop ≤ first.start := ⟨fun _ _ => Or.symm⟩
  have apart : spans.Pairwise fun first second =>
      first.stop ≤ second.start ∨ second.stop ≤ first.start := ordered.imp .inl
  have disjoint := apart.forall member otherMember differ
  rw [Span.Covers] at covers otherCovers
  omega

end Text

/-- Spans that are an account of a text: they lie in it one behind the other, cover what is a token wherever
it stands and the start of every word, and spell their tokens. A number takes all that belongs to it, and
its minus sign, or a minus operator in front of a digit, agrees with the span before. -/
structure Faithful (text : Text) (spans : List Span) : Prop where
  inside : ∀ span ∈ spans, 0 < span.length ∧ span.stop ≤ text.length
  ordered : spans.Pairwise fun first second => first.stop ≤ second.start
  coversKnown : ∀ place c, text[place]? = some c → c.isDigit = true ∨ c ∈ Scan.knownCharacters →
    ∃! span, span ∈ spans ∧ span.Covers place
  coversWords : ∀ place, ∀ word ∈ Scan.words, word.1 <+: text.drop place →
    ∃ span ∈ spans, span.Covers place
  spelled : ∀ span ∈ spans, Spells (span.slice text) span.token
  complete : ∀ span ∈ spans, span.token.isNumber = true →
    EndsNumber (span.slice text) (text.drop span.stop)
  signed : ∀ earlier span later, spans = earlier ++ span :: later → span.token.isNumber = true →
    (span.slice text).head? = some '-' →
      ∀ before ∈ earlier.getLast?, before.token.isNumber = false ∧ before.token ≠ .closing
  subtracted : ∀ earlier span later, spans = earlier ++ span :: later →
    span.token = .binary .minus → startsWithDigit (text.drop span.stop) = true →
      ∃ before ∈ earlier.getLast?, before.token.isNumber = true ∨ before.token = .closing

/-- The scan of any text is a faithful account of it. -/
theorem faithful_scan (text : Text) : Faithful text (scan text) := by
  have ordered : (scan text).Pairwise fun first second => first.stop ≤ second.start :=
    Scan.pairwise_spansFrom none 0 text
  refine ⟨?_, ordered, ?_, ?_, ?_, ?_, ?_, ?_⟩
  · intro span member
    obtain ⟨earlier, later, split⟩ := List.append_of_mem member
    obtain ⟨positive, stop, -⟩ := bounds_of_scan split
    exact ⟨positive, stop⟩
  · intro place c here known
    obtain ⟨span, member, covers⟩ := exists_covers_of_known here known
    refine ⟨span, ⟨member, covers⟩, fun other ⟨otherMember, otherCovers⟩ => ?_⟩
    exact eq_of_covers ordered otherMember member otherCovers covers
  · intro place word known starts
    exact exists_covers_of_word known starts
  · intro span member
    obtain ⟨earlier, later, split⟩ := List.append_of_mem member
    exact (reads_of_scan split).spells
  · intro span member number
    obtain ⟨earlier, later, split⟩ := List.append_of_mem member
    exact (reads_of_scan split).endsNumber number
  · intro earlier span later split number minus before last
    have allowed := (reads_of_scan split).signAllowed_of_head? number minus
    rw [Option.mem_def.mp last, Option.map_some, Scan.signAllowed_some, Bool.not_eq_true',
      Bool.or_eq_false_iff] at allowed
    refine ⟨allowed.1, fun closing => ?_⟩
    rw [closing] at allowed
    cases allowed.2
  · intro earlier span later split minus digit
    have refused := signAllowed_of_scan_minus split minus digit
    cases last : earlier.getLast? with
    | none =>
      rw [last] at refused
      cases refused
    | some before =>
      rw [last, Option.map_some, Scan.signAllowed_some, Bool.not_eq_false', Bool.or_eq_true] at refused
      refine ⟨before, rfl, refused.imp_right fun closes => ?_⟩
      have member : before ∈ scan text := by
        rw [split]
        exact List.mem_append_left _ (List.mem_of_getLast? last)
      obtain ⟨front, back, parts⟩ := List.append_of_mem member
      exact (reads_of_scan parts).eq_closing closes

end Calculator
