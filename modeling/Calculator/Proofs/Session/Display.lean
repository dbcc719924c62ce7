import Calculator.Proofs.Evaluation.Finiteness
import Calculator.Proofs.Session.Run

/-! # The display is in step with the buffer

A display keeps what each of its lines was told last. `Session.Ran` lists what a command can do to a session
and to the display; from it follows what every run leaves on the display. The text line shows the buffer, or
the error of an evaluation, until the next command that shows the buffer again or evaluates it. The
expression line is touched by two commands alone, and the other lines agree with the session all the
time.
-/

namespace Calculator

open Buffer (evaluate_of_ok evaluate_of_error)

/-- The lines of a display. A line that was never told anything shows nothing. -/
structure Display where
  text : Option String
  expression : Option String
  clearLabel : Option String
  panelVisible : Option Bool

namespace Display

/-- A display that was never told anything. -/
def blank : Display := ⟨none, none, none, none⟩

/-- The display after a call. -/
def tell (display : Display) : DisplayCall → Display
  | .display text => { display with text := some text }
  | .expression text => { display with expression := some text }
  | .clearLabel label => { display with clearLabel := some label }
  | .panelVisible visible => { display with panelVisible := some visible }

end Display

/-- Whether a command shows the buffer on a view whatever it finds there. -/
def Command.refreshes (view : View) : Command → Bool
  | .equals | .togglePanel => false
  | .insert _ => view = .scientific
  | _ => true

namespace Session

/-- The calls that an event makes. -/
def calls (session : Session) : Event → List DisplayCall
  | .input label => (session.input label).2
  | .clearKey => session.clearKey.2
  | .setMode _ => []

/-- The display after a sequence of events. -/
def shown (session : Session) (events : List Event) : Display :=
  (along next calls session events).foldl Display.tell .blank

/-- What the text line shows of a buffer. -/
def shownText (buffer : Buffer) : String :=
  if buffer.isEmpty then "0" else String.ofList buffer.text

/-- Whether an event shows the buffer again or runs an evaluation. -/
def attends (session : Session) (event : Event) : Bool :=
  (event.command? session.buffer.state).any (Command.refreshes session.view) ||
    (session.evaluation? event).isSome

/-- Whether an event clears the buffer or evaluates it with success. -/
def settles (session : Session) (event : Event) : Bool :=
  event.command? session.buffer.state = some .clear ||
    (session.evaluation? event).any Except.isOk

/-- What belongs on the expression line after an event that settles it. -/
def settledExpression (session : Session) (event : Event) : String :=
  if event.command? session.buffer.state = some .clear then ""
  else String.ofList (balanceParentheses session.buffer.text)

/-- All that a command can do, and what the display is told of it. -/
inductive Ran (session : Session) : Command → Session → List DisplayCall → Prop
  | edited {command : Command} (buffer : Buffer) (refreshes : command.refreshes session.view = true)
      (other : command ≠ .clear) : Ran session command { session with buffer } (refresh buffer)
  | cleared : Ran session .clear { session with buffer := .ofText [] }
      (.expression "" :: refresh (.ofText []))
  | evaluated {calculation : Calculation} (someText : session.buffer.isEmpty = false)
      (success : session.settings.calculate (balanceParentheses session.buffer.text) =
        .ok calculation) :
      Ran session .equals { session with buffer := ⟨calculation.text, .empty, true⟩ }
        (.expression (String.ofList (balanceParentheses session.buffer.text)) ::
          refresh ⟨calculation.text, .empty, true⟩)
  | failed {error : EvalError} (someText : session.buffer.isEmpty = false)
      (failure : session.settings.calculate (balanceParentheses session.buffer.text) =
        .error (.reported error)) :
      Ran session .equals session [.display (errorMark ++ error.message)]
  | toggled (scientific : session.view = .scientific) :
      Ran session .togglePanel { session with panelVisible := !session.panelVisible }
        [.panelVisible !session.panelVisible]
  | ignored {command : Command} (other : command ≠ .clear)
      (silent : command.refreshes session.view = false)
      (noText : command = .equals → session.buffer.isEmpty = true) : Ran session command session []

private theorem ran_equals (session : Session) :
    Ran session .equals session.equals.1 session.equals.2 := by
  unfold equals
  split
  · next noText => exact .ignored (by simp) rfl fun _ => noText
  · next someText =>
    have nonempty : session.buffer.isEmpty = false := by simpa using someText
    rcases (session.settings.calculate_reports
      (balanceParentheses session.buffer.text)).cases_on with
      ⟨error, failure⟩ | ⟨calculation, success, same, -⟩
    · rw [session.buffer.evaluate_of_error failure]
      exact .failed nonempty failure
    · rw [session.buffer.evaluate_of_ok success]
      dsimp only
      rw [same]
      exact .evaluated nonempty success

/-- Whatever a command does is one of the cases. -/
theorem ran_run (session : Session) (command : Command) :
    Ran session command (session.run command).1 (session.run command).2 := by
  cases command with
  | equals => exact ran_equals session
  | clear => exact .cleared
  | togglePanel =>
    rw [run, togglePanel]
    split
    · exact .ignored (by simp) rfl (by simp)
    · next scientific => exact .toggled scientific
  | insert text =>
    rw [run]
    split
    · next basic => exact .ignored (by simp) (by simp [Command.refreshes, basic]) (by simp)
    · next scientific => exact .edited _ (by simp [Command.refreshes, scientific]) (by simp)
  | _ => exact .edited _ rfl (by simp)

section Event

variable {session : Session} {event : Event} {command : Command}

/-- An event without a command changes the unit of angles at the most. -/
theorem next_of_noCommand (noCommand : event.command? session.buffer.state = none) :
    (session.next event).buffer = session.buffer ∧
      (session.next event).panelVisible = session.panelVisible ∧ session.calls event = [] := by
  cases event with
  | setMode name => exact ⟨rfl, rfl, rfl⟩
  | input label =>
    have unknown : Command.ofLabel? label = none := noCommand
    simp [next, calls, input, unknown]
  | clearKey =>
    have unknown : Command.ofLabel? (clearKeyLabel session.buffer.state) = none := noCommand
    simp [next, calls, clearKey, input, unknown]

/-- An event with a command carries it out. -/
theorem run_of_command (given : event.command? session.buffer.state = some command) :
    session.run command = (session.next event, session.calls event) := by
  cases event with
  | setMode name => cases given
  | input label =>
    have known : Command.ofLabel? label = some command := given
    simp [next, calls, input, known]
  | clearKey =>
    have known : Command.ofLabel? (clearKeyLabel session.buffer.state) = some command := given
    simp [next, calls, clearKey, input, known]

/-- An event does to session and display what its command does. -/
theorem ran_next (given : event.command? session.buffer.state = some command) :
    Ran session command (session.next event) (session.calls event) := by
  have ran := ran_run session command
  rw [run_of_command given] at ran
  exact ran

/-- Only one command evaluates. -/
theorem evaluation?_of_ne_equals (given : event.command? session.buffer.state = some command)
    (other : command ≠ .equals) : session.evaluation? event = none := by
  unfold evaluation?
  split
  · next equals => exact absurd (Option.some.inj (given.symm.trans equals)) other
  · rfl

/-- Where nothing is evaluated, the command alone says what the display is told of. -/
theorem quiet_of_noEvaluation (given : event.command? session.buffer.state = some command)
    (noEvaluation : session.evaluation? event = none) :
    session.attends event = command.refreshes session.view ∧
      session.settles event = decide (command = .clear) ∧ session.failure? event = none := by
  refine ⟨?_, ?_, ?_⟩
  · simp [attends, given, noEvaluation]
  · simp [settles, given, noEvaluation]
  · rw [failure?, noEvaluation]

/-- On some text the equals key evaluates the text with its parentheses supplied. -/
theorem evaluation?_of_equals (given : event.command? session.buffer.state = some .equals)
    (someText : session.buffer.isEmpty = false) :
    session.evaluation? event =
      some (session.settings.calculate (balanceParentheses session.buffer.text)) := by
  simp [evaluation?, given, someText]

end Event

/-- What a display shows next to a session: `attended` is the last event that showed the buffer or
evaluated it, and `settled` the last one that belongs on the expression line. -/
structure InStep (session : Session) (display : Display) (attended settled : Option (Session × Event)) :
    Prop where
  clearLabel : display.clearLabel = display.text.map fun _ => clearKeyLabel session.buffer.state
  text : match attended with
    | none => display.text = none ∧ session.buffer = .ofText []
    | some (before, event) => match before.failure? event with
      | none => display.text = some (shownText session.buffer)
      | some failure => session.buffer = before.buffer ∧ ∃ error : EvalError,
          failure = .reported error ∧ display.text = some (errorMark ++ error.message)
  expression : display.expression = settled.map fun (before, event) => before.settledExpression event
  panelVisible : display.panelVisible = none ∨ display.panelVisible = some session.panelVisible

section InStep

variable {session : Session} {display : Display} {attended settled : Option (Session × Event)}

/-- Where there is a text, the display was told of it. -/
theorem InStep.clearLabel_of_text (inStep : InStep session display attended settled)
    (someText : session.buffer.isEmpty = false) :
    display.clearLabel = some (clearKeyLabel session.buffer.state) := by
  have told : display.text ≠ none := by
    intro none
    have shows := inStep.text
    split at shows
    · rw [shows.2] at someText
      cases someText
    · split at shows
      · cases none.symm.trans shows
      · obtain ⟨-, error, -, shows⟩ := shows
        cases none.symm.trans shows
  obtain ⟨text, told⟩ := Option.ne_none_iff_exists'.mp told
  rw [inStep.clearLabel, told, Option.map_some]

/-- The step of the law: one event. -/
theorem InStep.next (inStep : InStep session display attended settled) (event : Event) :
    InStep (session.next event) ((session.calls event).foldl Display.tell display)
      (if session.attends event then some (session, event) else attended)
      (if session.settles event then some (session, event) else settled) := by
  cases given : event.command? session.buffer.state with
  | none =>
    obtain ⟨sameBuffer, samePanel, noCalls⟩ := next_of_noCommand given
    have notAttended : session.attends event = false := by simp [attends, evaluation?, given]
    have notSettled : session.settles event = false := by simp [settles, evaluation?, given]
    rw [notAttended, notSettled, noCalls]
    refine ⟨?_, ?_, inStep.expression, ?_⟩
    · rw [sameBuffer]
      exact inStep.clearLabel
    · rw [sameBuffer]
      exact inStep.text
    · rw [samePanel]
      exact inStep.panelVisible
  | some command =>
    have ran := ran_next given
    generalize session.next event = later at ran ⊢
    generalize session.calls event = calls at ran ⊢
    cases ran with
    | edited buffer refreshes other =>
      have noEvaluation : session.evaluation? event = none :=
        evaluation?_of_ne_equals given fun equals => by simp [equals, Command.refreshes] at refreshes
      obtain ⟨attended, settled, noFailure⟩ := quiet_of_noEvaluation given noEvaluation
      rw [attended, settled, refreshes, decide_eq_false other]
      refine ⟨rfl, ?_, inStep.expression, inStep.panelVisible⟩
      simp only [if_true, noFailure]
      rfl
    | cleared =>
      obtain ⟨attended, settled, noFailure⟩ :=
        quiet_of_noEvaluation given (evaluation?_of_ne_equals given (by simp))
      have empty : session.settledExpression event = "" := if_pos given
      rw [attended, settled]
      refine ⟨rfl, ?_, ?_, inStep.panelVisible⟩
      · simp only [Command.refreshes, if_true, noFailure]
        rfl
      · simp only [decide_true, if_true, Option.map_some, empty]
        rfl
    | @evaluated calculation someText success =>
      have evaluation : session.evaluation? event = some (.ok calculation) := by
        rw [evaluation?_of_equals given someText, success]
      have isAttended : session.attends event = true := by simp [attends, evaluation]
      have isSettled : session.settles event = true := by
        simp [settles, evaluation, Except.isOk, Except.toBool]
      have noFailure : session.failure? event = none := by rw [failure?, evaluation]
      have expression : session.settledExpression event =
          String.ofList (balanceParentheses session.buffer.text) := if_neg (by simp [given])
      rw [isAttended, isSettled]
      refine ⟨rfl, ?_, ?_, inStep.panelVisible⟩
      · simp only [if_true, noFailure]
        rfl
      · simp only [if_true, Option.map_some, expression]
        rfl
    | @failed error someText failure =>
      have evaluation : session.evaluation? event = some (.error (.reported error)) := by
        rw [evaluation?_of_equals given someText, failure]
      have isAttended : session.attends event = true := by simp [attends, evaluation]
      have notSettled : session.settles event = false := by
        simp [settles, evaluation, given, Except.isOk, Except.toBool]
      have failed : session.failure? event = some (.reported error) := by rw [failure?, evaluation]
      rw [isAttended, notSettled]
      refine ⟨inStep.clearLabel_of_text someText, ?_, inStep.expression, inStep.panelVisible⟩
      simp only [if_true, failed]
      exact ⟨trivial, error, rfl, rfl⟩
    | toggled scientific =>
      obtain ⟨attended, settled, -⟩ :=
        quiet_of_noEvaluation given (evaluation?_of_ne_equals given (by simp))
      rw [attended, settled]
      exact ⟨inStep.clearLabel, inStep.text, inStep.expression, .inr rfl⟩
    | ignored other silent noText =>
      have noEvaluation : session.evaluation? event = none := by
        by_cases equals : command = .equals
        · subst equals
          simp [evaluation?, given, noText rfl]
        · exact evaluation?_of_ne_equals given equals
      obtain ⟨attended, settled, -⟩ := quiet_of_noEvaluation given noEvaluation
      rw [attended, settled, silent, decide_eq_false other]
      exact inStep

end InStep

/-- After every run the display is in step with the session. The text line shows the buffer, unless the
last event that showed the buffer again or evaluated it was an evaluation that failed: then it shows that
error and the buffer is as it was. On the expression line stands what was evaluated last with success, or
nothing where the buffer was cleared since. -/
theorem display_in_step (view : View) (settings : Settings) (events : List Event) :
    InStep ((start view settings).after events) ((start view settings).shown events)
      (lastStep? next attends (start view settings) events)
      (lastStep? next settles (start view settings) events) := by
  induction events using List.reverseRecOn with
  | nil => exact ⟨rfl, ⟨rfl, rfl⟩, rfl, .inl rfl⟩
  | append_singleton events event ih =>
    have step := ih.next event
    rw [lastStep?_concat, lastStep?_concat, shown, along_concat, List.foldl_append, after,
      List.foldl_append]
    exact step

end Session

end Calculator
