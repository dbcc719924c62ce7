import Calculator.Proofs.Buffer.Operation
import Calculator.Proofs.Scan.Cut

/-! # What backspace takes back

A press of backspace takes back the token that ends the text: a number loses its last character, a function
name goes together with its parenthesis, any other token goes as a whole, and where no token ends the text
one character that the scanner passes over goes. The text is cut where the scan comes to, so no token in
front is read in another way afterwards.
-/

namespace Calculator

/-- A parenthesis stands directly behind a function name, and is typed by the same key. -/
def OpensCall (before last : Span) : Prop :=
  last.token.isOpenParen = true ∧ before.token.isFunction = true ∧ before.stop = last.start

namespace TrailingToken

variable {text : Text} {earlier : List Span} {before last : Span}

/-- No token of the text ends where the text ends. -/
theorem ofText?_of_apart (apart : ∀ span ∈ scan text, span.stop ≠ text.length) : ofText? text = none := by
  unfold ofText?
  cases reversed : (scan text).reverse with
  | nil => rfl
  | cons last earlier =>
    have member : last ∈ scan text := by
      rw [← List.mem_reverse, reversed]
      exact List.mem_cons_self ..
    exact if_pos (apart last member)

section Last

variable (stop : last.stop = text.length)
include stop

/-- A function name and its parenthesis are one trailing token. -/
theorem ofText?_of_call (spans : scan text = earlier ++ [before, last]) (call : OpensCall before last) :
    ofText? text = some ⟨last.stop - before.start, false⟩ := by
  have reversed : (scan text).reverse = last :: before :: earlier.reverse := by simp [spans]
  obtain ⟨opens, function, adjacent⟩ := call
  simp [ofText?, reversed, stop, opens, function, adjacent]

/-- Any other token at the end is the trailing one by itself. -/
theorem ofText?_of_token (spans : scan text = earlier ++ [last])
    (noCall : ∀ before ∈ earlier.getLast?, ¬ OpensCall before last) :
    ofText? text = some ⟨last.length, last.token.isNumber⟩ := by
  have reversed : (scan text).reverse = last :: earlier.reverse := by simp [spans]
  simp only [ofText?, reversed, stop, ne_eq, not_true_eq_false, if_false, List.head?_reverse]
  cases ends : earlier.getLast? with
  | none => rfl
  | some before => exact if_neg (noCall before ends)

end Last

/-- A token of the text ends where the text ends only if it is the last one. -/
theorem exists_last_or_apart (text : Text) :
    (∃ earlier last, scan text = earlier ++ [last] ∧ last.stop = text.length) ∨
      ∀ span ∈ scan text, span.stop ≠ text.length := by
  rcases List.eq_nil_or_concat (scan text) with none | ⟨earlier, last, spans⟩
  · exact .inr (by simp [none])
  · rw [List.concat_eq_append] at spans
    obtain ⟨positive, inside, order⟩ := bounds_of_scan spans
    by_cases stop : last.stop = text.length
    · exact .inl ⟨earlier, last, spans, stop⟩
    · refine .inr ?_
      rw [spans]
      simp only [List.forall_mem_append, List.forall_mem_singleton]
      refine ⟨fun span member => ?_, stop⟩
      have above := order span member
      rw [Span.stop] at inside
      omega

end TrailingToken

namespace Buffer

open TrailingToken (ofText? removedLength)

variable {text : Text} {earlier : List Span} {before last : Span}

/-- The text that backspace leaves. -/
def kept (text : Text) : Text := text.take (text.length - removedLength (ofText? text))

theorem backspace_eq {buffer : Buffer} (nonempty : buffer.text ≠ []) :
    buffer.backspace = buffer.shortened (kept buffer.text) := by
  rw [backspace, isEmpty, if_neg (by simpa using nonempty)]
  rfl

/-- Where no token ends the text, one character goes. -/
theorem kept_of_apart (apart : ∀ span ∈ scan text, span.stop ≠ text.length) :
    kept text = text.dropLast := by
  rw [kept, TrailingToken.ofText?_of_apart apart, removedLength, List.dropLast_eq_take]

section Last

variable (stop : last.stop = text.length)
include stop

/-- A function name goes together with its parenthesis. -/
theorem kept_of_call (spans : scan text = earlier ++ [before, last]) (call : OpensCall before last) :
    kept text = text.take before.start := by
  obtain ⟨-, inside, -⟩ := bounds_of_scan spans
  rw [kept, TrailingToken.ofText?_of_call stop spans call]
  change text.take (text.length - (last.stop - before.start)) = _
  congr 1
  rw [Span.stop] at inside
  omega

/-- Another token goes as a whole, unless it is a number of several characters. -/
theorem kept_of_token (spans : scan text = earlier ++ [last])
    (short : ¬ (last.token.isNumber = true ∧ 1 < last.length))
    (noCall : ∀ before ∈ earlier.getLast?, ¬ OpensCall before last) :
    kept text = text.take last.start := by
  rw [kept, TrailingToken.ofText?_of_token stop spans noCall, removedLength, if_neg short, ← stop,
    Span.stop, Nat.add_sub_cancel]

/-- A number of several characters loses the last one. -/
theorem kept_of_number (spans : scan text = earlier ++ [last]) (number : last.token.isNumber = true)
    (long : 1 < last.length) : kept text = text.dropLast := by
  have noCall : ∀ before ∈ earlier.getLast?, ¬ OpensCall before last := by
    rintro before - ⟨opens, -⟩
    generalize last.token = token at number opens
    cases token with
    | number => cases opens
    | _ => cases number
  rw [kept, TrailingToken.ofText?_of_token stop spans noCall, removedLength, if_pos ⟨number, long⟩,
    List.dropLast_eq_take]

end Last

/-- What backspace can do to a text: it takes off one character, where a number or no token ends the text, or
it cuts the text in front of a span. -/
inductive Keeps (text : Text) : Text → Prop
  | character
      (ends : ∀ last ∈ (scan text).getLast?, last.stop = text.length → last.token.isNumber = true) :
      Keeps text text.dropLast
  | token {span : Span} (member : span ∈ scan text) : Keeps text (text.take span.start)

/-- Backspace does nothing else. -/
theorem keeps_kept (text : Text) : Keeps text (kept text) := by
  rcases TrailingToken.exists_last_or_apart text with ⟨earlier, last, spans, stop⟩ | apart
  · by_cases calls : ∃ before ∈ earlier.getLast?, OpensCall before last
    · obtain ⟨before, ends, call⟩ := calls
      obtain ⟨earlier, rfl⟩ := List.getLast?_eq_some_iff.mp ends
      rw [List.append_assoc, List.singleton_append] at spans
      rw [kept_of_call stop spans call]
      exact .token (by simp [spans])
    · by_cases digits : last.token.isNumber = true ∧ 1 < last.length
      · rw [kept_of_number stop spans digits.1 digits.2]
        exact .character (by simp [spans, digits.1])
      · rw [kept_of_token stop spans digits (by simpa using calls)]
        exact .token (by simp [spans])
  · rw [kept_of_apart apart]
    exact .character fun last ends stop => absurd stop (apart last (List.mem_of_mem_getLast? ends))

/-- Of a text at least one character goes, and those in front of it stay. -/
theorem kept_prefix_ne (nonempty : text ≠ []) : kept text <+: text ∧ kept text ≠ text := by
  refine ⟨List.take_prefix .., fun same => ?_⟩
  have lengths := congrArg List.length same
  have positive := List.length_pos_iff.mpr nonempty
  have keeps := keeps_kept text
  generalize kept text = left at keeps lengths
  cases keeps with
  | character =>
    rw [List.length_dropLast] at lengths
    omega
  | @token span member =>
    obtain ⟨earlier, later, spans⟩ := List.append_of_mem member
    obtain ⟨some, inside, -⟩ := bounds_of_scan spans
    rw [List.length_take] at lengths
    rw [Span.stop] at inside
    omega

/-! ### The spans that are left -/

/-- A text that ends with no token has the same spans without its last character. -/
theorem scan_dropLast_of_apart (nonempty : text ≠ [])
    (apart : ∀ span ∈ scan text, span.stop ≠ text.length) : scan text.dropLast = scan text := by
  obtain ⟨front, c, rfl⟩ := (List.eq_nil_or_concat text).resolve_left nonempty
  rw [List.concat_eq_append] at apart ⊢
  have outside : ∀ span ∈ scan (front ++ [c]), span.stop ≤ front.length := by
    intro span member
    obtain ⟨earlier, later, split⟩ := List.append_of_mem member
    obtain ⟨-, inside, -⟩ := bounds_of_scan split
    have other := apart span member
    rw [List.length_append, List.length_singleton] at inside other
    omega
  have cut : Scan.Cut none front [c] := by
    have apart : ∀ span ∈ Scan.spansFrom none 0 (front ++ [c]),
        0 + front.length ≤ span.start ∨ span.stop ≤ 0 + front.length := by
      rw [Nat.zero_add]
      exact fun span member => .inr (outside span member)
    exact Scan.cut_of_outside apart
  rw [List.dropLast_concat, cut.scan_append]
  -- A span behind the place would end with the text.
  cases last : Scan.spansFrom (lastToken? front) front.length [c] with
  | nil => rw [List.append_nil]
  | cons span later =>
    have stop := outside span (by rw [cut.scan_append, last]; simp)
    have start := Scan.le_start_of_mem_spansFrom (last ▸ List.mem_cons_self ..)
    have positive := (Scan.bounds_of_split (last.trans (List.nil_append _).symm)).1
    rw [Span.stop] at stop
    omega

/-- A text up to where a span starts has the spans in front of it. -/
theorem scan_take_start {later : List Span} (spans : scan text = earlier ++ before :: later) :
    scan (text.take before.start) = earlier := by
  obtain ⟨front, back, rfl, inFront, place, -⟩ := exists_cut_of_scan spans
  rw [place, List.take_left, inFront]

private theorem exists_spansFrom_dropLast {previous : Option Token} {negative : Bool} {digits : Text}
    (unsigned : Operand.isUnsigned digits = true) (long : 1 < (Operand.signed negative digits).length)
    (allowed : negative = true → Scan.signAllowed previous = true) (start : Nat) :
    ∃ span, Scan.spansFrom previous start (Operand.signed negative digits).dropLast = [span] ∧
      span.start = start := by
  have nonempty : digits ≠ [] := Operand.written_ne_nil unsigned false false
  have shorter : (Operand.signed negative digits).dropLast = Operand.signed negative digits.dropLast := by
    cases negative with
    | false => rfl
    | true => exact List.dropLast_cons_of_ne_nil nonempty
  rw [shorter]
  by_cases none : digits.dropLast = []
  · cases negative with
    | false =>
      have few : digits.length - 1 = 0 := by rw [← List.length_dropLast, none, List.length_nil]
      exact absurd long (by rw [Operand.signed, if_neg Bool.false_ne_true]; omega)
    | true =>
      have minus : Scan.lexeme? previous (['-'] ++ []) = some (.binary .minus, ['-'].length) :=
        Scan.lexeme?_minus previous []
      refine ⟨⟨.binary .minus, start, 1⟩, ?_, rfl⟩
      rw [none, Operand.signed, if_pos rfl, ← List.append_nil ['-'],
        Scan.spansFrom_of_lexeme? (List.cons_ne_nil _ _) minus, Scan.spansFrom]
      rfl
  · have fewer := Operand.isUnsigned_of_prefix unsigned (List.dropLast_prefix digits) none
    obtain ⟨length, spans⟩ := Operand.exists_spansFrom_signed_alone fewer allowed start
    exact ⟨_, spans, rfl⟩

/-- Without the last character of a number at its end, a text has one token in the place of the number. -/
theorem exists_scan_dropLast_of_number (spans : scan text = earlier ++ [last])
    (stop : last.stop = text.length) (number : last.token.isNumber = true) (long : 1 < last.length) :
    ∃ span, scan text.dropLast = earlier ++ [span] ∧ span.start = last.start := by
  obtain ⟨front, negative, digits, unsigned, rfl, rfl, inFront, cut, allowed⟩ :=
    exists_signed_of_last spans stop number
  have nonempty : Operand.signed negative digits ≠ [] := List.ne_nil_of_length_pos (Nat.lt_of_succ_lt long)
  obtain ⟨span, inside, begins⟩ := exists_spansFrom_dropLast unsigned long allowed front.length
  refine ⟨span, ?_, begins⟩
  rw [List.dropLast_append_of_ne_nil nonempty, (cut.shorten (List.dropLast_prefix _)).scan_append, inFront,
    inside]

/-- What is left of a text when its trailing token is taken back, whatever the text ends with: no token, a
number of several characters, the parenthesis of a call, or another token. The spans that are left keep their
tokens, places and lengths. -/
structure TakesBackLast (text left : Text) : Prop where
  shorter : left <+: text ∧ left ≠ text
  noToken : (∀ span ∈ scan text, span.stop ≠ text.length) →
    left.length + 1 = text.length ∧ scan left = scan text
  number : ∀ earlier last, scan text = earlier ++ [last] → last.stop = text.length →
    last.token.isNumber = true → 1 < last.length →
      left.length + 1 = text.length ∧ ∃ span, scan left = earlier ++ [span] ∧ span.start = last.start
  call : ∀ earlier before last, scan text = earlier ++ [before, last] → last.stop = text.length →
    OpensCall before last → scan left = earlier
  other : ∀ earlier last, scan text = earlier ++ [last] → last.stop = text.length →
    ¬ (last.token.isNumber = true ∧ 1 < last.length) →
      (∀ before ∈ earlier.getLast?, ¬ OpensCall before last) → scan left = earlier

/-- Backspace takes back the trailing token of every text, and disturbs no other. -/
theorem takesBackLast_backspace (buffer : Buffer) (nonempty : buffer.text ≠ []) :
    TakesBackLast buffer.text buffer.backspace.text := by
  rw [backspace_eq nonempty]
  change TakesBackLast buffer.text (kept buffer.text)
  have fewer : buffer.text.dropLast.length + 1 = buffer.text.length := by
    rw [List.length_dropLast]
    exact Nat.sub_add_cancel (List.length_pos_iff.mpr nonempty)
  refine ⟨kept_prefix_ne nonempty, ?_, ?_, ?_, ?_⟩
  · intro apart
    rw [kept_of_apart apart]
    exact ⟨fewer, scan_dropLast_of_apart nonempty apart⟩
  · intro earlier last spans stop number long
    rw [kept_of_number stop spans number long]
    exact ⟨fewer, exists_scan_dropLast_of_number spans stop number long⟩
  · intro earlier before last spans stop call
    rw [kept_of_call stop spans call]
    exact scan_take_start spans
  · intro earlier last spans stop short noCall
    rw [kept_of_token stop spans short noCall]
    exact scan_take_start spans

/-- Behind `2x-3` the number loses its digit, and the minus sign that was its sign is left. -/
theorem takesBackLast_backspace_signed :
    (ofText "2x-3".toList).text ≠ [] ∧
      TakesBackLast (ofText "2x-3".toList).text (ofText "2x-3".toList).backspace.text ∧
      (ofText "2x-3".toList).backspace.text = "2x-".toList :=
  ⟨by decide, takesBackLast_backspace _ (by decide), by decide +kernel⟩

end Buffer

end Calculator
