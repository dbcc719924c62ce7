import Calculator.Buffer.Basic
import Calculator.Command

/-! # A session at the display

A session connects labels to edits of the buffer and tells the display what to show. The display is
told by calls, which a step returns in their order; it is never asked. Labels that mean nothing, and
scientific ones on a basic view, change and show nothing.
-/

namespace Calculator

/-- The two layouts of buttons. -/
inductive View where
  | basic
  | scientific
deriving DecidableEq

/-- What the display is told. -/
inductive DisplayCall where
  | display (text : String)
  | expression (text : String)
  | clearLabel (label : String)
  | panelVisible (visible : Bool)
deriving DecidableEq

/-- A buffer with the settings it is evaluated by and the layout it is shown in. -/
structure Session where
  view : View
  settings : Settings
  buffer : Buffer
  panelVisible : Bool

namespace Session

/-- A session that begins with an empty buffer and a hidden panel. -/
def start (view : View) (settings : Settings) : Session :=
  { view, settings, buffer := .ofText [], panelVisible := false }

/-- What is put in front of the wording of an error. -/
def errorMark : String := "Erreur: "

/-- The label of the clear key in a state. -/
def clearKeyLabel : BufferState → String
  | .empty => Command.clearLabel
  | .filled => Command.backspaceLabel

/-- Shows the buffer. An empty text is shown as zero. -/
def refresh (buffer : Buffer) : List DisplayCall :=
  [.display (if buffer.isEmpty then "0" else String.ofList buffer.text),
    .clearLabel (clearKeyLabel buffer.state)]

/-- Replaces the buffer and shows it. -/
def edit (session : Session) (buffer : Buffer) : Session × List DisplayCall :=
  ({ session with buffer }, refresh buffer)

/-- Evaluates the buffer, unless it is empty. A failure is shown in place of the text; a result is
shown below the expression that it belongs to. -/
def equals (session : Session) : Session × List DisplayCall :=
  if session.buffer.isEmpty then (session, [])
  else match session.buffer.evaluate session.settings with
    | (buffer, .ok calculation) =>
        ({ session with buffer },
          .expression (String.ofList calculation.expression) :: refresh buffer)
    | (buffer, .error failure) =>
        ({ session with buffer }, [.display (errorMark ++ failure.message)])

/-- Shows or hides the scientific panel, on a view that has one. -/
def togglePanel (session : Session) : Session × List DisplayCall :=
  match session.view with
  | .basic => (session, [])
  | .scientific =>
      ({ session with panelVisible := !session.panelVisible },
        [.panelVisible !session.panelVisible])

/-- Carries out a command. -/
def run (session : Session) : Command → Session × List DisplayCall
  | .digit c => session.edit (session.buffer.appendDigitOrPoint [c])
  | .point => session.edit (session.buffer.appendDigitOrPoint ['.'])
  | .operator c => session.edit (session.buffer.appendOperator [c])
  | .clear =>
      let (session, calls) := session.edit session.buffer.clear
      (session, .expression "" :: calls)
  | .backspace => session.edit session.buffer.backspace
  | .toggleSign => session.edit session.buffer.toggleSign
  | .percent => session.edit session.buffer.appendPercent
  | .equals => session.equals
  | .togglePanel => session.togglePanel
  | .insert text =>
      match session.view with
      | .basic => (session, [])
      | .scientific => session.edit (session.buffer.appendText text)

/-- Takes a label. -/
def input (session : Session) (label : String) : Session × List DisplayCall :=
  match Command.ofLabel? label with
  | none => (session, [])
  | some command => session.run command

/-- Takes the clear key, whose meaning follows the state of the buffer. -/
def clearKey (session : Session) : Session × List DisplayCall :=
  session.input (clearKeyLabel session.buffer.state)

/-- Changes the unit of angles. -/
def setMode (session : Session) (name : String) : Session :=
  { session with settings := session.settings.setMode name }

/-- Takes a key press, and answers with the label that it stands for. -/
def key (session : Session) (text name : String) :
    Option String × Session × List DisplayCall :=
  match Key.label? text name with
  | none => (none, session, [])
  | some label => (some label, session.input label)

end Session

end Calculator
