import Calculator.Proofs.Scan.Step
import Mathlib.Data.List.Find
import Mathlib.Data.List.Infix

/-! # Scanning a text with another one behind it

A scan falls apart at a place that no lexeme reaches across. `Cut` follows the steps of the scan to such a
place: the text in front of it is scanned as if nothing stood behind it, and what stands behind it can be
made shorter. `Apart` says of two texts that no lexeme reaches from the first into the second one, and
`breaks` tests this on the characters behind the place alone, so a text can be extended whatever was typed
before.
-/

namespace Calculator

namespace Scan

variable {previous : Option Token} {start : Nat} {text rest front back : Text} {c : Char} {token : Token}
  {length : Nat}

/-- A step takes at least one character, and no more than there are. -/
theorem exists_append_of_lexeme? (read : lexeme? previous text = some (token, length)) :
    ∃ first rest, text = first ++ rest ∧ length = first.length ∧ first ≠ [] := by
  obtain ⟨first, rest, split, same, reads⟩ := exists_reads_of_lexeme? read
  exact ⟨first, rest, split, same, reads.ne_nil⟩

/-- A scan goes on directly behind the characters that a step takes. -/
theorem exists_append_drop_of_lexeme? (read : lexeme? previous (c :: text) = some (token, length)) :
    ∃ first, c :: text = first ++ text.drop (length - 1) ∧ length = first.length ∧ first ≠ [] := by
  obtain ⟨first, rest, split, rfl, nonempty⟩ := exists_append_of_lexeme? read
  refine ⟨first, ?_, rfl, nonempty⟩
  obtain ⟨head, first, rfl⟩ := List.exists_cons_of_ne_nil nonempty
  obtain ⟨rfl, rfl⟩ := List.cons.inj split
  simp

/-! ### A step that ends within a text -/

private theorem prefix_of_append {word : Text} (reached : word.isPrefixOf text = true) :
    word.isPrefixOf (text ++ rest) = true :=
  List.isPrefixOf_iff_prefix.mpr
    ((List.isPrefixOf_iff_prefix.mp reached).trans (List.prefix_append text rest))

private theorem word?_of_append (read : word? (text ++ rest) = some (token, length))
    (fits : length ≤ text.length) : word? text = some (token, length) := by
  obtain ⟨word, found, same⟩ := Option.map_eq_some_iff.mp read
  obtain ⟨matched, earlier, later, order, unmatched⟩ := List.find?_eq_some_iff_append.mp found
  obtain ⟨rfl, rfl⟩ := Prod.mk.inj same
  refine Option.map_eq_some_iff.mpr ⟨word, List.find?_eq_some_iff_append.mpr
    ⟨?_, earlier, later, order, fun other member => ?_⟩, rfl⟩
  · exact List.isPrefixOf_iff_prefix.mpr (List.prefix_of_prefix_length_le
      (List.isPrefixOf_iff_prefix.mp matched) (List.prefix_append text rest) fits)
  · have across := unmatched other member
    rw [Bool.not_eq_true'] at across ⊢
    exact Bool.eq_false_iff.mpr fun reached =>
      absurd (across.symm.trans (prefix_of_append reached)) Bool.false_ne_true

/-- A step that ends within the text is the step of the text alone. -/
theorem lexeme?_of_append (nonempty : text ≠ [])
    (read : lexeme? previous (text ++ rest) = some (token, length)) (fits : length ≤ text.length) :
    lexeme? previous text = some (token, length) := by
  obtain ⟨c, text, rfl⟩ := List.exists_cons_of_ne_nil nonempty
  by_cases minus : c = '-'
  · subst minus
    rw [List.cons_append, lexeme?_minus] at read
    rw [lexeme?_minus]
    by_cases signed : startsWithDigit (text ++ rest) = true ∧ signAllowed previous = true
    · rw [if_pos signed] at read
      obtain ⟨rfl, rfl⟩ := Prod.mk.inj (Option.some.inj read)
      have literal := Literal.atStart_of_append (Nat.le_of_succ_le_succ fits)
      have digit : startsWithDigit text = true := by
        rw [← Literal.whole_atStart_ne_nil_iff, ← literal]
        exact Literal.whole_atStart_ne_nil_iff.mpr signed.1
      rw [if_pos ⟨digit, signed.2⟩, literal]
    · have noSign : ¬ (startsWithDigit text = true ∧ signAllowed previous = true) := by
        rintro ⟨digit, allowed⟩
        refine signed ⟨?_, allowed⟩
        cases text with
        | nil => cases digit
        | cons => exact digit
      rw [if_neg noSign, ← read, if_neg signed]
  · by_cases digit : c.isDigit = true
    · have starts : startsWithDigit (c :: text) = true := digit
      have startsAcross : startsWithDigit (c :: text ++ rest) = true := digit
      rw [lexeme?_digit startsAcross] at read
      obtain ⟨rfl, rfl⟩ := Prod.mk.inj (Option.some.inj read)
      rw [lexeme?_digit starts, Literal.atStart_of_append fits]
    · rw [List.cons_append] at read
      simp only [lexeme?, minus, false_and, if_false, digit, Bool.false_eq_true] at read ⊢
      cases symbol : symbol? c with
      | some => rwa [symbol] at read
      | none =>
        rw [symbol] at read
        exact word?_of_append read fits

/-- What is passed over within a longer text is passed over within the text alone. -/
theorem lexeme?_of_append_none (skipped : lexeme? previous (c :: text ++ rest) = none) :
    lexeme? previous (c :: text) = none := by
  obtain ⟨noDigit, noSymbol, noWord⟩ := unknown_of_skipped skipped
  have noSign : c ≠ '-' := by
    rintro rfl
    cases noSymbol
  have unmatched : word? (c :: text) = none := by
    refine word?_eq_none_iff.mpr fun word member reached => ?_
    exact word?_eq_none_iff.mp noWord word member (reached.trans (List.prefix_append ..))
  simp only [lexeme?, noSign, false_and, if_false, noDigit, Bool.false_eq_true, noSymbol, unmatched]

/-! ### The cut -/

/-- The scan of `front ++ back` comes to the end of `front`: no step that starts in front of this place
ends behind it. -/
inductive Cut : Option Token → Text → Text → Prop
  | here {previous : Option Token} {back : Text} : Cut previous [] back
  | skip {previous : Option Token} {c : Char} {front back : Text}
      (skipped : lexeme? previous (c :: (front ++ back)) = none) (later : Cut previous front back) :
      Cut previous (c :: front) back
  | read {previous : Option Token} {first front back : Text} {token : Token} (nonempty : first ≠ [])
      (read : lexeme? previous (first ++ (front ++ back)) = some (token, first.length))
      (later : Cut (some token) front back) : Cut previous (first ++ front) back

namespace Cut

/-- What stands behind the place can be made shorter. -/
theorem shorten {shorter : Text} (cut : Cut previous front back) (inside : shorter <+: back) :
    Cut previous front shorter := by
  induction cut with
  | here => exact .here
  | skip skipped _ ih =>
    have later := ih inside
    obtain ⟨more, rfl⟩ := inside
    rw [← List.append_assoc] at skipped
    exact .skip (lexeme?_of_append_none skipped) later
  | read nonempty read _ ih =>
    have later := ih inside
    obtain ⟨more, rfl⟩ := inside
    rw [← List.append_assoc, ← List.append_assoc] at read
    refine .read nonempty ?_ later
    rw [← List.append_assoc]
    exact lexeme?_of_append (by simp [nonempty]) read (by simp)

/-- The scan of the rest goes on where the scan of the text in front ends. -/
theorem spansFrom_append (cut : Cut previous front back) (start : Nat) :
    spansFrom previous start (front ++ back) =
      spansFrom previous start front ++
        spansFrom (lastFrom Span.token previous (spansFrom previous start front))
          (start + front.length) back := by
  induction cut generalizing start with
  | here =>
    rw [spansFrom]
    rfl
  | @skip previous c front back skipped later ih =>
    have alone : lexeme? previous (c :: front) = none := lexeme?_of_append_none skipped
    rw [List.cons_append, spansFrom, skipped, spansFrom, alone]
    simp only [ih, List.length_cons]
    rw [Nat.add_right_comm, Nat.add_assoc]
  | @read previous first front back token nonempty read later ih =>
    have alone : lexeme? previous (first ++ front) = some (token, first.length) := by
      rw [← List.append_assoc] at read
      exact lexeme?_of_append (by simp [nonempty]) read (by simp)
    rw [List.append_assoc, spansFrom_of_lexeme? nonempty read, spansFrom_of_lexeme? nonempty alone, ih,
      lastFrom_cons, List.length_append, Nat.add_assoc, List.cons_append]

end Cut

/-- Every scan comes to the end of its text. -/
theorem cut_nil (previous : Option Token) (text : Text) : Cut previous text [] := by
  induction previous, 0, text using spansFrom.induct with
  | case1 => exact .here
  | case2 previous start c rest skipped ih =>
    refine .skip ?_ ih
    rwa [List.append_nil]
  | case3 previous start c rest token length read ih =>
    obtain ⟨first, split, rfl, nonempty⟩ := exists_append_drop_of_lexeme? read
    rw [split] at read ⊢
    refine .read nonempty ?_ ih
    rwa [List.append_nil]

/-! ### Texts that stand apart -/

/-- No lexeme that starts in the text reaches into the rest: the rest starts with neither a digit nor a
point, nor with the end of a word that the text ends with the beginning of. -/
structure Apart (text rest : Text) : Prop where
  noDigit : startsWithDigit rest = false
  noPoint : rest.head? ≠ some '.'
  noWord : ∀ word ∈ words, ∀ first last, word.1 = first ++ last → first ≠ [] → last ≠ [] →
    first <:+ text → ¬ last <+: rest

private theorem isPrefixOf_append {word : Text}
    (noEnding : ∀ last, word = text ++ last → last ≠ [] → ¬ last <+: rest) :
    word.isPrefixOf (text ++ rest) = word.isPrefixOf text := by
  rw [Bool.eq_iff_iff, List.isPrefixOf_iff_prefix, List.isPrefixOf_iff_prefix]
  constructor
  · rintro ⟨after, split⟩
    obtain ⟨more, inside, -⟩ | ⟨last, across, reached⟩ := List.append_eq_append_iff.mp split
    · exact ⟨more, inside.symm⟩
    · by_cases none : last = []
      · simp [across, none]
      · exact absurd ⟨after, reached.symm⟩ (noEnding last across none)
  · intro front
    exact front.trans (List.prefix_append text rest)

/-- No word reaches across if the rest starts with no proper end of one. -/
theorem word?_append_of_noEnding
    (noEnding : ∀ word ∈ words, ∀ last, word.1 = text ++ last → last ≠ [] → ¬ last <+: rest) :
    word? (text ++ rest) = word? text := by
  unfold word?
  congr 1
  exact List.find?_congr fun word member => isPrefixOf_append (noEnding word member)

namespace Apart

theorem of_suffix {later : Text} (apart : Apart text rest) (inside : later <:+ text) :
    Apart later rest where
  noDigit := apart.noDigit
  noPoint := apart.noPoint
  noWord word member first last split some more ends :=
    apart.noWord word member first last split some more (ends.trans inside)

/-- A step inside the text does not see the rest. -/
theorem lexeme?_append (apart : Apart text rest) (nonempty : text ≠ []) :
    lexeme? previous (text ++ rest) = lexeme? previous text := by
  obtain ⟨noDigit, noPoint, noWord⟩ := apart
  have words : word? (text ++ rest) = word? text :=
    word?_append_of_noEnding fun word member last split more =>
      noWord word member text last split nonempty more (List.suffix_refl text)
  obtain ⟨c, text, rfl⟩ := List.exists_cons_of_ne_nil nonempty
  have digits : startsWithDigit (text ++ rest) = startsWithDigit text := by
    cases text with
    | nil => exact noDigit
    | cons => rfl
  have literal : Literal.atStart (c :: (text ++ rest)) = Literal.atStart (c :: text) :=
    Literal.atStart_append (c :: text) noDigit noPoint
  rw [List.cons_append] at words ⊢
  simp only [lexeme?, digits, literal, words, Literal.atStart_append text noDigit noPoint]

/-- The scan comes to every place that no lexeme reaches across. -/
theorem cut (apart : Apart text rest) (previous : Option Token) : Cut previous text rest := by
  have steps := cut_nil previous text
  generalize none : ([] : Text) = behind at steps
  induction steps with
  | here => exact .here
  | @skip previous c front back skipped later ih =>
    subst none
    rw [List.append_nil] at skipped
    refine .skip ?_ (ih (apart.of_suffix (List.suffix_cons c front)) rfl)
    rw [← List.cons_append, apart.lexeme?_append (List.cons_ne_nil c front), skipped]
  | @read previous first front back token nonempty read later ih =>
    subst none
    rw [List.append_nil] at read
    refine .read nonempty ?_ (ih (apart.of_suffix (List.suffix_append first front)) rfl)
    rw [← List.append_assoc, apart.lexeme?_append (by simp [nonempty]), read]

end Apart

/-- Whether no lexeme can reach into a text from in front of it: the text starts with neither a
digit nor a point, nor with the end of a word. -/
def breaks (rest : Text) : Bool :=
  !startsWithDigit rest && rest.head? != some '.' &&
    words.all fun word =>
      word.1.tail.tails.all fun ending => ending.isEmpty || !ending.isPrefixOf rest

/-- Whatever stands in front, no lexeme reaches into a text that breaks. -/
theorem apart_of_breaks (text : Text) (apart : breaks rest = true) : Apart text rest := by
  simp only [breaks, Bool.and_eq_true, Bool.not_eq_true', bne_iff_ne, List.all_eq_true, List.mem_tails,
    Bool.or_eq_true, List.isEmpty_iff] at apart
  obtain ⟨⟨noDigit, noPoint⟩, noEnding⟩ := apart
  refine ⟨noDigit, noPoint, fun word member first last split some more _ reached => ?_⟩
  have tail : last <:+ word.1.tail := by
    obtain ⟨c, first, rfl⟩ := List.exists_cons_of_ne_nil some
    rw [split]
    exact List.suffix_append first last
  have noPrefix := (noEnding word member last tail).resolve_left more
  exact Bool.false_ne_true (noPrefix.symm.trans (List.isPrefixOf_iff_prefix.mpr reached))

/-- The scan of the rest goes on where the scan of the text in front ends. -/
theorem spansFrom_append (apart : breaks rest = true) :
    spansFrom previous start (text ++ rest) =
      spansFrom previous start text ++
        spansFrom (lastFrom Span.token previous (spansFrom previous start text))
          (start + text.length) rest :=
  ((apart_of_breaks text apart).cut previous).spansFrom_append start

end Scan

/-- The last token of a text. -/
def lastToken? (text : Text) : Option Token := ((scan text).map Span.token).getLast?

/-- The scan of a text goes on behind a place that it comes to. -/
theorem Scan.Cut.scan_append {text rest : Text} (cut : Scan.Cut none text rest) :
    scan (text ++ rest) = scan text ++ Scan.spansFrom (lastToken? text) text.length rest := by
  rw [scan, cut.spansFrom_append, Nat.zero_add, Scan.lastFrom_none, lastToken?, List.getLast?_map]
  rfl

/-- A text can be scanned in front of any rest that no lexeme reaches into. -/
theorem scan_append {text rest : Text} (apart : Scan.breaks rest = true) :
    scan (text ++ rest) = scan text ++ Scan.spansFrom (lastToken? text) text.length rest :=
  ((Scan.apart_of_breaks text apart).cut none).scan_append

end Calculator
