import Calculator.Proofs.Buffer.Operation
import Calculator.Session

/-! # Runs of a session

Labels, presses of the clear key and changes of the unit of angles, in any order. An event carries out at
the most one operation on the buffer, and only a few operations are ever asked for: `Session.Sent` lists
them for a view. What they keep of a text holds of the text after every run.
-/

namespace Calculator

open Buffer (Operation Becomes)

/-- The operation on the buffer that a command stands for. -/
def Command.operation? (view : View) (settings : Settings) : Command → Option Operation
  | .digit c => some (.digitOrPoint [c])
  | .point => some (.digitOrPoint ['.'])
  | .operator c => some (.operator [c])
  | .clear => some .clear
  | .backspace => some .backspace
  | .toggleSign => some .toggleSign
  | .percent => some .percent
  | .equals => some (.evaluate settings)
  | .togglePanel => none
  | .insert text => if view = .scientific then some (.insert text) else none

namespace Session

/-- What can be done at the display. -/
inductive Event where
  | input (label : String)
  | clearKey
  | setMode (name : String)

/-- The command that an event gives. -/
def Event.command? (state : BufferState) : Event → Option Command
  | input label => Command.ofLabel? label
  | clearKey => Command.ofLabel? (clearKeyLabel state)
  | setMode _ => none

/-- The session after an event. -/
def next (session : Session) : Event → Session
  | .input label => (session.input label).1
  | .clearKey => session.clearKey.1
  | .setMode name => session.setMode name

/-- The session after a sequence of events. -/
def after (session : Session) (events : List Event) : Session := events.foldl next session

/-- The operation that an event carries out on the buffer. -/
def operation? (session : Session) (event : Event) : Option Operation :=
  (event.command? session.buffer.state).bind (Command.operation? session.view session.settings)

/-- What the evaluation that an event runs ends with. Without a text none is run. -/
def evaluation? (session : Session) (event : Event) : Option (Except Failure Calculation) :=
  match event.command? session.buffer.state with
  | some .equals =>
      if session.buffer.isEmpty then none
      else some (session.settings.calculate (balanceParentheses session.buffer.text))
  | _ => none

/-- What the evaluation that an event runs fails with. -/
def failure? (session : Session) (event : Event) : Option Failure :=
  match session.evaluation? event with
  | some (.error failure) => some failure
  | _ => none

/-- An event fails with a kind of error only if the evaluation of the text does. -/
theorem kind?_failure?_ne {session : Session} {kind : ErrorKind}
    (avoids : session.buffer.text ≠ [] →
      Avoids kind (session.settings.calculate (balanceParentheses session.buffer.text)))
    (event : Event) : (session.failure? event).bind Failure.kind? ≠ some kind := by
  rw [failure?, evaluation?]
  split
  · next failure failed =>
    split at failed
    · split at failed
      · cases failed
      · next someText =>
        refine avoids (fun empty => someText ?_) failure (Option.some.inj failed)
        exact List.isEmpty_iff.mpr empty
    · cases failed
  · simp

section Step

variable (session : Session)

/-- No command changes the view. -/
@[simp] theorem view_run (command : Command) : (session.run command).1.view = session.view := by
  cases command with
  | equals =>
    rw [run, equals]
    split
    · rfl
    · split <;> rfl
  | togglePanel =>
    rw [run, togglePanel]
    split <;> rfl
  | insert text =>
    rw [run]
    split <;> rfl
  | _ => rfl

theorem view_input (label : String) : (session.input label).1.view = session.view := by
  unfold input
  split
  · rfl
  · exact view_run session _

/-- An event never changes the layout. -/
theorem view_next (event : Event) : (session.next event).view = session.view := by
  cases event with
  | input label => exact view_input session label
  | clearKey => exact view_input session _
  | setMode name => rfl

theorem view_after (events : List Event) : (session.after events).view = session.view := by
  refine List.foldlRecOn (motive := fun later => later.view = session.view) events next rfl ?_
  intro later same event _
  exact (view_next later event).trans same

theorem calculate_nil (settings : Settings) :
    settings.calculate [] = .error (.reported .emptyExpression) := by
  have noTokens : tokenize [] = [] := by
    simp [tokenize, scan, Scan.spansFrom, Percent.disambiguate, Percent.disambiguateFrom, Percent.fold]
  rw [Settings.calculate, evaluate, noTokens]
  rfl

/-- Evaluating an empty buffer would fail, so leaving it out changes nothing. -/
theorem buffer_equals :
    session.equals.1.buffer = session.buffer.apply (.evaluate session.settings) := by
  unfold equals
  split
  · next empty =>
    have text : session.buffer.text = [] := List.isEmpty_iff.mp empty
    have fails : session.settings.calculate (balanceParentheses session.buffer.text) =
        .error (.reported .emptyExpression) := by
      rw [text]
      exact calculate_nil session.settings
    exact (congrArg Prod.fst (session.buffer.evaluate_of_error fails)).symm
  · rw [Buffer.apply]
    split <;> next outcome => rw [outcome]

/-- A command carries out its operation on the buffer, if it has one, and no other. -/
theorem buffer_run (command : Command) :
    (session.run command).1.buffer =
      (command.operation? session.view session.settings).elim session.buffer session.buffer.apply := by
  cases command with
  | equals => exact buffer_equals session
  | togglePanel =>
    rw [run, togglePanel]
    split <;> rfl
  | insert text =>
    unfold run Command.operation?
    cases session.view <;> rfl
  | _ => rfl

theorem buffer_input (label : String) :
    (session.input label).1.buffer =
      (session.operation? (.input label)).elim session.buffer session.buffer.apply := by
  rw [operation?, Event.command?]
  unfold input
  split
  · next unknown =>
    rw [unknown]
    rfl
  · next command known =>
    rw [known]
    exact buffer_run session command

/-- An event does to the buffer what its operation does, and nothing else. -/
theorem buffer_next (event : Event) :
    (session.next event).buffer =
      (session.operation? event).elim session.buffer session.buffer.apply := by
  cases event with
  | input label => exact buffer_input session label
  | clearKey => exact buffer_input session (clearKeyLabel session.buffer.state)
  | setMode name => rfl

end Step

/-- The operations that a view asks for. -/
inductive Sent (view : View) : Operation → Prop
  | digit {c : Char} (digit : c.isDigit = true) : Sent view (.digitOrPoint [c])
  | point : Sent view (.digitOrPoint ['.'])
  | operator {c : Char} (sign : Operand.isOperatorSign c = true) : Sent view (.operator [c])
  | insert {label : String} {text : Text} (scientific : view = .scientific)
      (typed : (label, text) ∈ Command.scientific) : Sent view (.insert text)
  | percent : Sent view .percent
  | clear : Sent view .clear
  | backspace : Sent view .backspace
  | toggleSign : Sent view .toggleSign
  | evaluate (settings : Settings) : Sent view (.evaluate settings)

/-- Whether a label may stand for a command. -/
private def isPaired : String × Command → Bool
  | (_, .digit c) => c.isDigit
  | (_, .operator c) => Operand.isOperatorSign c
  | (label, .insert text) => (label, text) ∈ Command.scientific
  | (label, .toggleSign) => label == "±"
  | _ => true

private theorem isPaired_of_ofLabel? {label : String} {command : Command}
    (known : Command.ofLabel? label = some command) : isPaired (label, command) = true := by
  obtain ⟨front, back, split, -⟩ := List.lookup_eq_some_iff.mp known
  have all : ∀ pair ∈ Command.labels, isPaired pair = true := by decide
  exact all (label, command) (split ▸ List.mem_append_right front (List.mem_cons_self ..))

variable {session : Session} {event : Event} {operation : Operation}

private theorem exists_command (asked : session.operation? event = some operation) :
    ∃ label command, Command.ofLabel? label = some command ∧
      command.operation? session.view session.settings = some operation ∧
        (event = .input label ∨ label = clearKeyLabel session.buffer.state) := by
  obtain ⟨command, given, stands⟩ := Option.bind_eq_some_iff.mp asked
  cases event with
  | input label => exact ⟨label, command, given, stands, .inl rfl⟩
  | clearKey => exact ⟨_, command, given, stands, .inr rfl⟩
  | setMode name => cases given

/-- An event asks for no other operations. -/
theorem sent_of_operation? (asked : session.operation? event = some operation) :
    Sent session.view operation := by
  obtain ⟨label, command, known, asked, -⟩ := exists_command asked
  have paired := isPaired_of_ofLabel? known
  cases command with
  | digit c =>
    cases asked
    exact .digit paired
  | operator c =>
    cases asked
    exact .operator paired
  | insert text =>
    obtain ⟨scientific, rfl⟩ : session.view = .scientific ∧ .insert text = operation := by
      simpa [Command.operation?] using asked
    exact .insert scientific (of_decide_eq_true paired)
  | togglePanel => cases asked
  | point => cases asked; exact .point
  | clear => cases asked; exact .clear
  | backspace => cases asked; exact .backspace
  | toggleSign => cases asked; exact .toggleSign
  | percent => cases asked; exact .percent
  | equals => cases asked; exact .evaluate _

/-- The sign is changed by its own key alone. -/
theorem operation?_eq_toggleSign_iff :
    session.operation? event = some .toggleSign ↔ event = .input "±" := by
  constructor
  · intro asked
    obtain ⟨label, command, known, asked, given⟩ := exists_command asked
    have paired := isPaired_of_ofLabel? known
    cases command with
    | toggleSign =>
      obtain rfl : label = "±" := eq_of_beq paired
      refine given.resolve_right fun same => ?_
      have other : ∀ state, "±" ≠ clearKeyLabel state := by
        intro state
        cases state <;> decide
      exact other _ same
    | insert text => simp [Command.operation?] at asked
    | _ => cases asked
  · rintro rfl
    rfl

/-- What becomes of the buffer in one step. -/
theorem becomes_next (session : Session) (event : Event) :
    (session.next event).buffer = session.buffer ∨
      ∃ operation, session.operation? event = some operation ∧ Sent session.view operation ∧
        Becomes session.buffer operation (session.next event).buffer := by
  rw [buffer_next]
  cases asked : session.operation? event with
  | none => exact .inl rfl
  | some operation =>
    exact .inr ⟨operation, rfl, sent_of_operation? asked, session.buffer.becomes_apply operation⟩

/-- What the operations of a view keep of a text holds after every run. -/
theorem law_after_of_apply (law : Text → Prop) (view : View) (settings : Settings)
    (events : List Event) (empty : law [])
    (kept : ∀ (buffer : Buffer) operation, law buffer.text → Sent view operation →
      law (buffer.apply operation).text) :
    law ((start view settings).after events).buffer.text := by
  refine (List.foldlRecOn (motive := fun session => session.view = view ∧ law session.buffer.text)
    events next (b := start view settings) ⟨rfl, empty⟩ ?_).2
  intro session ⟨same, holds⟩ event _
  refine ⟨(view_next session event).trans same, ?_⟩
  rw [buffer_next]
  cases asked : session.operation? event with
  | none => exact holds
  | some operation => exact kept _ _ holds (same ▸ sent_of_operation? asked)

/-- What all that can become of a buffer keeps of a text holds after every run. -/
theorem law_after (law : Text → Prop) (view : View) (settings : Settings) (events : List Event)
    (empty : law [])
    (kept : ∀ buffer operation later, law buffer.text → Sent view operation →
      Becomes buffer operation later → law later.text) :
    law ((start view settings).after events).buffer.text :=
  law_after_of_apply law view settings events empty fun buffer operation holds sent =>
    kept buffer operation _ holds sent (buffer.becomes_apply operation)

end Session

end Calculator
