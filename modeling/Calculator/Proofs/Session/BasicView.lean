import Calculator.Proofs.Balance
import Calculator.Proofs.Buffer.SignKey
import Calculator.Proofs.Session.Display

/-! # The basic view stays basic

On a basic view parentheses enter a text through the sign key alone, which writes them in pairs around one
operand. Taking characters back, negating again and results keep the text from closing more than it opens,
so closing at its end what is open is always enough. The scientific panel is never mentioned.
-/

namespace Calculator

open Buffer (Operation Becomes)

section Append

variable {front back digits : Text}

theorem NeverOvercloses.part (never : NeverOvercloses back) (inside : front <+: back) :
    NeverOvercloses front := fun inner part => never inner (part.trans inside)

/-- Texts that never close too much can be put together. -/
theorem NeverOvercloses.append (neverFront : NeverOvercloses front) (neverBack : NeverOvercloses back) :
    NeverOvercloses (front ++ back) := by
  rintro inner ⟨rest, split⟩
  rcases List.append_eq_append_iff.mp split with ⟨more, rfl, -⟩ | ⟨more, rfl, reached⟩
  · exact neverFront inner (List.prefix_append ..)
  · have before := neverFront front (List.prefix_refl front)
    have behind := neverBack more ⟨rest, reached.symm⟩
    rw [List.count_append, List.count_append]
    omega

theorem neverOvercloses_of_notMem (noClosing : ')' ∉ back) : NeverOvercloses back := by
  intro inner inside
  rw [List.count_eq_zero_of_not_mem fun member => noClosing (inside.subset member)]
  exact Nat.zero_le _

/-- A character that is no parenthesis can be dropped at the start. -/
theorem NeverOvercloses.tail {c : Char} (never : NeverOvercloses (c :: back)) (noOpening : c ≠ '(') :
    NeverOvercloses back := by
  intro inner inside
  have whole := never (c :: inner) ((List.prefix_cons_inj c).mpr inside)
  rw [List.count_cons_of_ne noOpening] at whole
  exact (List.count_le_count_cons ..).trans whole

/-- An operand closes what it opens. -/
theorem neverOvercloses_written (unsigned : Operand.isUnsigned digits = true)
    (wrapped negative : Bool) : NeverOvercloses (Operand.written wrapped negative digits) := by
  have noClosing : ')' ∉ Operand.signed negative digits := by
    have noDigit : ')' ∉ digits := Operand.notMem_of_isUnsigned unsigned (by decide)
    cases negative <;> simp [Operand.signed, noDigit]
  cases wrapped with
  | false => exact neverOvercloses_of_notMem noClosing
  | true =>
    intro inner inside
    rcases List.prefix_cons_iff.mp inside with rfl | ⟨more, rfl, part⟩
    · exact Nat.le_refl _
    · have closes := part.sublist.count_le ')'
      rw [List.count_append, List.count_eq_zero_of_not_mem noClosing] at closes
      rw [List.count_cons_self, List.count_cons_of_ne (by decide)]
      exact closes.trans (Nat.le_add_left ..)

end Append

/-- The characters that the keys of a basic view and its results are made of. -/
def isBasicCharacter (c : Char) : Bool := c.isDigit || c ∈ ['.', '+', '-', 'x', '÷', '%', '(', ')']

namespace Session

variable {settings : Settings} {session : Session} {buffer later : Buffer} {operation : Operation}

/-- What a key of a basic view, or a result, puts at the end of a text. -/
inductive BasicPiece : Text → Prop
  | nothing : BasicPiece []
  | digit {c : Char} (digit : c.isDigit = true) : BasicPiece [c]
  | point (text : Text) : BasicPiece (Buffer.pointBehind text)
  | operator {c : Char} (sign : Operand.isOperatorSign c = true) : BasicPiece [c]
  | percent : BasicPiece ['%']
  | operand (wrapped negative : Bool) {digits : Text} (unsigned : Operand.isUnsigned digits = true) :
      BasicPiece (Operand.written wrapped negative digits)

/-- On a basic view a text only ever loses a minus sign at its start, or something at its end where
then a piece is put. -/
theorem exists_basicPiece_of_becomes (sent : Sent .basic operation)
    (becomes : Becomes buffer operation later) :
    buffer.text = '-' :: later.text ∨
      ∃ front piece, front <+: buffer.text ∧ BasicPiece piece ∧ later.text = front ++ piece := by
  have typed := buffer.typedText_prefix
  cases becomes with
  | unchanged => exact .inr ⟨_, [], List.prefix_refl _, .nothing, (List.append_nil _).symm⟩
  | discarded => exact .inr ⟨_, [], typed, .nothing, (List.append_nil _).symm⟩
  | digit digit => exact .inr ⟨_, _, typed, .digit digit, rfl⟩
  | point first => exact .inr ⟨_, _, typed, .point _, rfl⟩
  | operator someText =>
    cases sent with
    | operator sign => exact .inr ⟨_, _, Buffer.withoutSign_prefix _, .operator sign, rfl⟩
  | inserted nonempty =>
    cases sent with
    | insert scientific typed => cases scientific
  | percent => exact .inr ⟨_, _, List.prefix_refl _, .percent, rfl⟩
  | cleared => exact .inr ⟨[], [], List.nil_prefix, .nothing, rfl⟩
  | backspaced someText front => exact .inr ⟨_, [], front, .nothing, (List.append_nil _).symm⟩
  | negated found =>
    rcases Buffer.negated?_cases found with
      minus | ⟨-, before, wrapped, negative, digits, unsigned, split, same⟩
    · exact .inl minus
    · obtain ⟨whole, -⟩ := Operand.atEnd_of_split? split
      have part : before <+: buffer.text :=
        (List.prefix_append _ _).trans (whole ▸ Buffer.isPrefix_withoutFinalBreak buffer.text)
      exact .inr ⟨before, _, part, .operand _ _ unsigned, same⟩
  | evaluated success =>
    obtain ⟨negative, digits, unsigned, same⟩ := Buffer.exists_written_of_calculate success
    exact .inr ⟨[], _, List.nil_prefix, .operand false negative unsigned, same⟩

theorem BasicPiece.isBasicCharacter {piece : Text} (basic : BasicPiece piece) :
    piece.all isBasicCharacter = true := by
  cases basic with
  | nothing => rfl
  | digit digit => simp [Calculator.isBasicCharacter, digit]
  | point text =>
    unfold Buffer.pointBehind
    split <;> rfl
  | operator sign =>
    rcases Operand.isOperatorSign_cases sign with rfl | rfl | rfl | rfl <;> rfl
  | percent => rfl
  | @operand wrapped negative digits unsigned =>
    have inside : digits.all Calculator.isBasicCharacter = true := by
      refine List.all_eq_true.mpr fun c member => ?_
      have character := Operand.isNumeralCharacter_of_isUnsigned unsigned c member
      simp only [Operand.isNumeralCharacter, Bool.or_eq_true, beq_iff_eq] at character
      rcases character with digit | rfl
      · simp [Calculator.isBasicCharacter, digit]
      · rfl
    cases wrapped <;> cases negative <;>
      simp [Operand.written, Operand.signed, List.all_append, inside, Calculator.isBasicCharacter]

/-- Such a piece closes only what it opens. -/
theorem BasicPiece.neverOvercloses {piece : Text} (basic : BasicPiece piece) :
    NeverOvercloses piece := by
  cases basic with
  | nothing => exact neverOvercloses_of_notMem (by simp)
  | @digit c digit =>
    have other : c ≠ ')' := Operand.ne_of_isDigit digit rfl
    exact neverOvercloses_of_notMem (by simpa using other.symm)
  | point text =>
    apply neverOvercloses_of_notMem
    unfold Buffer.pointBehind
    split <;> decide
  | @operator c sign =>
    have other : c ≠ ')' := by
      rintro rfl
      cases sign
    exact neverOvercloses_of_notMem (by simpa using other.symm)
  | percent => exact neverOvercloses_of_notMem (by decide)
  | operand wrapped negative unsigned => exact neverOvercloses_written unsigned wrapped negative

/-- The text of a basic view after every run: its own characters only, and no prefix that closes more
parentheses than it opens. -/
theorem basicText_after (settings : Settings) (events : List Event) :
    let text := ((start .basic settings).after events).buffer.text
    text.all isBasicCharacter = true ∧ NeverOvercloses text := by
  refine law_after (fun text => text.all isBasicCharacter = true ∧ NeverOvercloses text) .basic settings
    events ⟨rfl, neverOvercloses_of_notMem (by simp)⟩ ?_
  intro buffer operation later ⟨basic, never⟩ sent becomes
  rcases exists_basicPiece_of_becomes sent becomes with minus | ⟨front, piece, part, put, same⟩
  · rw [minus] at basic never
    rw [List.all_cons, Bool.and_eq_true] at basic
    exact ⟨basic.2, never.tail (by decide)⟩
  · rw [same, List.all_append, Bool.and_eq_true]
    have basicFront : front.all isBasicCharacter = true :=
      List.all_eq_true.mpr fun c member => List.all_eq_true.mp basic c (part.subset member)
    exact ⟨⟨basicFront, put.isBasicCharacter⟩, (never.part part).append put.neverOvercloses⟩

/-- An event on a basic view says nothing about the panel. -/
theorem noPanel_next (basic : session.view = .basic) (event : Event) :
    (session.next event).panelVisible = session.panelVisible ∧
      ∀ visible, .panelVisible visible ∉ session.calls event := by
  cases given : event.command? session.buffer.state with
  | none =>
    obtain ⟨-, samePanel, noCalls⟩ := next_of_noCommand given
    exact ⟨samePanel, by simp [noCalls]⟩
  | some command =>
    have ran := ran_next given
    generalize session.next event = later at ran ⊢
    generalize session.calls event = calls at ran ⊢
    cases ran with
    | toggled scientific => cases basic.symm.trans scientific
    | _ => exact ⟨rfl, by simp [refresh]⟩

/-- On a basic view the panel stays hidden and is never mentioned to the display. -/
theorem noPanel_after (settings : Settings) (events : List Event) :
    ((start .basic settings).after events).panelVisible = false ∧
      ∀ visible, .panelVisible visible ∉ along next calls (start .basic settings) events := by
  induction events using List.reverseRecOn with
  | nil => exact ⟨rfl, by simp [along]⟩
  | append_singleton events event ih =>
    obtain ⟨hidden, silent⟩ := ih
    have basic : ((start .basic settings).after events).view = .basic := view_after _ events
    obtain ⟨samePanel, noCalls⟩ := noPanel_next basic event
    rw [after, List.foldl_append]
    refine ⟨samePanel.trans hidden, fun visible member => ?_⟩
    rw [along_concat] at member
    exact (List.mem_append.mp member).elim (silent visible) (noCalls visible)

/-- On a basic view, after every run: the text has basic characters only and nowhere closes more than it
opens, the panel was never mentioned and is hidden, and no evaluation fails because of parentheses. -/
theorem basic_stays_basic (settings : Settings) (events : List Event) :
    let session := (start .basic settings).after events
    session.buffer.text.all isBasicCharacter = true ∧ NeverOvercloses session.buffer.text ∧
      (∀ visible, .panelVisible visible ∉ along next calls (start .basic settings) events) ∧
        session.panelVisible = false ∧
          ∀ event, (session.failure? event).bind Failure.kind? ≠ some .unbalancedParentheses := by
  obtain ⟨basic, never⟩ := basicText_after settings events
  obtain ⟨hidden, silent⟩ := noPanel_after settings events
  refine ⟨basic, never, silent, hidden, kind?_failure?_ne fun _ => Settings.calculate_avoids ?_⟩
  rw [evaluate_eq]
  exact evaluateTokens_avoids (balanced_balanceParentheses never) _

end Session

end Calculator
