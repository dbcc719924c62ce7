import Calculator.Proofs.Buffer.Points
import Calculator.Proofs.Session.Run

/-! # One point in every run

What the keys of a view do to the points of a text. Every key but the one for the sign keeps each run to
one point, and in front of every point stands a digit. On a basic view a parenthesis opens only where
the sign key writes it, never directly behind a run, and then the sign key joins no runs either. On a
scientific view it can, and this is the only way to a run with two points.
-/

namespace Calculator

open Buffer (Operation Becomes OnePoint PointsFollowDigits GroupsStandApart JoinsPoints)
open Operand (isNumeralCharacter)

namespace Session

/-- What the scientific panel inserts has no point and starts with a character of no numeral. -/
theorem scientific_typed {label : String} {text : Text} (typed : (label, text) ∈ Command.scientific) :
    '.' ∉ text ∧ ∃ c rest, text = c :: rest ∧ isNumeralCharacter c = false := by
  have all : ∀ pair ∈ Command.scientific,
      '.' ∉ pair.2 ∧ pair.2.head?.any (fun c => !isNumeralCharacter c) = true := by decide
  obtain ⟨noPoint, apart⟩ := all _ typed
  refine ⟨noPoint, ?_⟩
  cases text with
  | nil => cases apart
  | cons c rest => exact ⟨c, rest, rfl, by simpa using apart⟩

section Becomes

variable {view : View} {buffer later : Buffer} {operation : Operation}

/-- Every key but the one for the sign keeps runs to one point. -/
theorem onePoint_of_becomes (sent : Sent view operation) (other : operation ≠ .toggleSign)
    (becomes : Becomes buffer operation later) (one : OnePoint buffer.text) : OnePoint later.text := by
  have typed : OnePoint buffer.typedText := Buffer.law_typedText Buffer.onePoint_nil one
  cases becomes with
  | unchanged => exact one
  | discarded => exact typed
  | @digit c digit =>
    have noPoint : c ≠ '.' := Operand.ne_of_isDigit digit rfl
    refine (Buffer.onePoint_append_iff (by simp [isNumeralCharacter, digit])).mpr ⟨typed, ?_⟩
    simpa [noPoint] using typed.count_currentOperand
  | point first =>
    have numeral : ∀ c ∈ Buffer.pointBehind buffer.typedText, isNumeralCharacter c = true := by
      refine List.all_eq_true.mp ?_
      unfold Buffer.pointBehind
      split <;> rfl
    have single : (Buffer.pointBehind buffer.typedText).count '.' = 1 := by
      unfold Buffer.pointBehind
      split <;> decide
    refine (Buffer.onePoint_append_iff numeral).mpr ⟨typed, ?_⟩
    rw [List.count_eq_zero_of_not_mem first, single]
  | operator someText =>
    cases sent with
    | operator sign =>
      apply Buffer.onePoint_concat (Operand.isNumeralCharacter_of_isOperatorSign sign)
      exact one.part (Buffer.withoutSign_prefix _).isInfix
  | inserted nonempty =>
    cases sent with
    | insert scientific typed =>
      obtain ⟨noPoint, c, rest, rfl, apart⟩ := scientific_typed typed
      apply Buffer.onePoint_append_cons apart one
      apply Buffer.onePoint_of_count_le
      rw [List.count_eq_zero_of_not_mem fun member => noPoint (List.mem_cons_of_mem _ member)]
      exact Nat.zero_le 1
  | percent => exact Buffer.onePoint_concat rfl one
  | cleared => exact Buffer.onePoint_nil
  | backspaced someText front => exact one.part front.isInfix
  | negated found => exact absurd rfl other
  | evaluated success =>
    obtain ⟨negative, digits, unsigned, same⟩ := Buffer.exists_written_of_calculate success
    apply Buffer.onePoint_of_count_le
    rw [same]
    have few := Buffer.count_point_of_isUnsigned unsigned
    cases negative <;> simpa [Operand.written, Operand.signed] using few

/-- On either view a point stands behind a digit. -/
theorem pointsFollowDigits_of_becomes (sent : Sent view operation)
    (becomes : Becomes buffer operation later) (points : PointsFollowDigits buffer.text) :
    PointsFollowDigits later.text := by
  have typed : PointsFollowDigits buffer.typedText := Buffer.law_typedText Buffer.precededBy_nil points
  cases becomes with
  | unchanged => exact points
  | discarded => exact typed
  | @digit c digit =>
    have noPoint : c ≠ '.' := Operand.ne_of_isDigit digit rfl
    exact typed.append_of_notMem (by simpa using noPoint.symm)
  | point first =>
    change PointsFollowDigits (buffer.typedText ++ Buffer.pointBehind buffer.typedText)
    unfold Buffer.pointBehind
    split
    · have zero : PointsFollowDigits (buffer.typedText ++ ['0']) :=
        typed.append_of_notMem (by decide)
      rw [List.append_cons]
      exact zero.concat (by simp)
    · next someRun =>
      have nonempty : Buffer.currentOperand buffer.typedText ≠ [] := fun empty =>
        someRun (List.isEmpty_iff.mpr empty)
      exact typed.concat (Buffer.isDigit_of_currentOperand nonempty first)
  | operator someText =>
    cases sent with
    | @operator c sign =>
      have noPoint : c ≠ '.' := by
        rintro rfl
        cases sign
      exact (points.part (Buffer.withoutSign_prefix _)).append_of_notMem (by simpa using noPoint.symm)
  | inserted nonempty =>
    cases sent with
    | insert scientific typed => exact points.append_of_notMem (scientific_typed typed).1
  | percent => exact points.append_of_notMem (by decide)
  | cleared => exact Buffer.precededBy_nil
  | backspaced someText front => exact points.part front
  | negated found => exact Buffer.pointsFollowDigits_negated found points
  | evaluated success =>
    obtain ⟨negative, digits, unsigned, same⟩ := Buffer.exists_written_of_calculate success
    rw [same]
    exact Buffer.pointsFollowDigits_append_written unsigned false negative Buffer.precededBy_nil

/-- On a basic view only the sign key opens a parenthesis. -/
theorem groupsStandApart_of_becomes (sent : Sent .basic operation)
    (becomes : Becomes buffer operation later) (apart : GroupsStandApart buffer.text)
    (points : PointsFollowDigits buffer.text) (one : OnePoint buffer.text) :
    GroupsStandApart later.text := by
  have typed : GroupsStandApart buffer.typedText := Buffer.law_typedText Buffer.precededBy_nil apart
  cases becomes with
  | unchanged => exact apart
  | discarded => exact typed
  | @digit c digit =>
    have noParenthesis : c ≠ '(' := Operand.ne_of_isDigit digit rfl
    exact typed.append_of_notMem (by simpa using noParenthesis.symm)
  | point first =>
    apply typed.append_of_notMem
    unfold Buffer.pointBehind
    split <;> decide
  | operator someText =>
    cases sent with
    | @operator c sign =>
      have noParenthesis : c ≠ '(' := by
        rintro rfl
        cases sign
      exact (apart.part (Buffer.withoutSign_prefix _)).append_of_notMem
        (by simpa using noParenthesis.symm)
  | inserted nonempty =>
    cases sent with
    | insert scientific typed => cases scientific
  | percent => exact apart.append_of_notMem (by decide)
  | cleared => exact Buffer.precededBy_nil
  | backspaced someText front => exact apart.part front
  | negated found => exact Buffer.groupsStandApart_negated found apart points one
  | evaluated success =>
    obtain ⟨negative, digits, unsigned, same⟩ := Buffer.exists_written_of_calculate success
    have apart : GroupsStandApart ([] ++ Operand.written false negative digits) :=
      Buffer.groupsStandApart_append_written unsigned negative Buffer.precededBy_nil nofun
    rw [same]
    exact apart

end Becomes

/-- One step keeps runs to one point unless the sign key joins two of them. -/
theorem onePoint_next_iff (session : Session) (event : Event) (one : OnePoint session.buffer.text) :
    OnePoint (session.next event).buffer.text ↔
      ¬ (event = .input "±" ∧ JoinsPoints session.buffer.text) := by
  by_cases signKey : event = .input "±"
  · have pressed : (session.next event).buffer = session.buffer.toggleSign := by
      rw [buffer_next, operation?_eq_toggleSign_iff.mpr signKey]
      rfl
    rw [pressed, Buffer.toggleSign_eq, and_iff_right signKey]
    cases found : Buffer.negated? session.buffer.text with
    | none =>
      refine iff_of_true one ?_
      rintro ⟨noMinus, before, digits, unsigned, ends, -⟩
      rw [Buffer.negated?_of_ne noMinus, Operand.negateLast?, ends,
        Operand.split?_append_written unsigned] at found
      cases found
    | some negated => exact Buffer.onePoint_negated_iff found one
  · refine iff_of_true ?_ fun joins => signKey joins.1
    rcases becomes_next session event with unchanged | ⟨operation, asked, sent, becomes⟩
    · rw [unchanged]
      exact one
    · refine onePoint_of_becomes sent ?_ becomes one
      rintro rfl
      exact signKey (operation?_eq_toggleSign_iff.mp asked)

/-- The text of a basic view after every run: one point in every run, behind a digit, and no parenthesis
that opens behind a run. -/
theorem basic_after (settings : Settings) (events : List Event) :
    let text := ((start .basic settings).after events).buffer.text
    OnePoint text ∧ PointsFollowDigits text ∧ GroupsStandApart text := by
  refine law_after (fun text => OnePoint text ∧ PointsFollowDigits text ∧ GroupsStandApart text) .basic
    settings events ⟨Buffer.onePoint_nil, Buffer.precededBy_nil, Buffer.precededBy_nil⟩ ?_
  intro buffer operation later ⟨one, points, apart⟩ sent becomes
  refine ⟨?_, pointsFollowDigits_of_becomes sent becomes points,
    groupsStandApart_of_becomes sent becomes apart points one⟩
  by_cases signKey : operation = .toggleSign
  · subst signKey
    cases becomes with
    | unchanged => exact one
    | negated found =>
      exact (Buffer.onePoint_negated_iff found one).mpr (Buffer.not_joinsPoints apart)
  · exact onePoint_of_becomes sent signKey becomes one

/-- On a basic view no run of the text ever has two points. On either view this holds throughout a run of
events exactly if the sign key is never pressed where it joins two runs with a point each. -/
theorem onePoint_along_run (settings : Settings) (events : List Event) :
    OnePoint ((start .basic settings).after events).buffer.text ∧
      ∀ view, Throughout next (fun session => OnePoint session.buffer.text) (start view settings)
        events ↔ ∀ front back, events = front ++ .input "±" :: back →
          ¬ JoinsPoints ((start view settings).after front).buffer.text := by
  refine ⟨(basic_after settings events).1, fun view => ?_⟩
  rw [throughout_iff fun session one event _ => onePoint_next_iff session event one]
  constructor
  · rintro ⟨-, apart⟩ front back split joins
    exact apart front _ back split ⟨rfl, joins⟩
  · intro apart
    refine ⟨Buffer.onePoint_nil, ?_⟩
    rintro front event back split ⟨rfl, joins⟩
    exact apart front back split joins

/-- Of `1.5(2.5)` two presses of the sign key make `1.52.5`. -/
theorem points_joined_by_sign_key :
    ((start .scientific .standard).after
        (["1", ".", "5", "(", "2", ".", "5", ")", "±", "±"].map .input)).buffer.text =
          "1.52.5".toList ∧
      ¬ OnePoint "1.52.5".toList := by
  refine ⟨by decide +kernel, fun one => ?_⟩
  have points := one _ (List.infix_refl _) (List.all_eq_true.mp rfl)
  exact absurd points (by decide)

end Session

end Calculator
